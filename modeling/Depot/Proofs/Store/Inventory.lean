/-
A store that artifacts are uploaded to, as a map. An `Inventory` says of
each relpath which artifact is kept there, and how many changes there
were; a store `Holds` it if its records, its blobs and its files say the
same. What a transaction reads in such a store is what the inventory says
(`Holds.load`, `Holds.blob`, `Holds.relpaths`); an upload that commits puts
its artifact (`Holds.commit_put`) and a removal takes one away
(`Holds.commit_remove`), and an upload that is refused changes nothing of it
(`Holds.commit_refused`).
-/
import Depot.Proofs.Store.Calls
import Depot.Proofs.Store.FileRecord
import Depot.Proofs.Store.Listing
import Depot.Proofs.Store.Refusals
import Depot.Proofs.Store.Shelf

namespace Depot

open Files Files.Tree Text Transaction

-- ===================================================== artifacts

/-- Content that was uploaded, and the digest that it is kept under. -/
structure Artifact where
  content : Bytes
  spec : HashSpec
deriving DecidableEq

/-- The record of an artifact that was uploaded at a time. -/
def Artifact.record (a : Artifact) (date : String) : FileRecord :=
  { hash := some a.spec.toText, size := some a.content.length, lastModified := some date }

/-- A relpath that an upload of an artifact gets. -/
def Artifact.BelongsAt (a : Artifact) (relpath : String) : Prop :=
  ∃ user index basename algo, Entry.isUpload user index basename = true
    ∧ a.spec = HashSpec.ofContent algo a.content
    ∧ relpath = Relpath.ofUpload user index a.spec basename

/-- Artifacts by their relpaths, and how often they changed. -/
structure Inventory where
  artifacts : Std.ExtTreeMap String Artifact := ∅
  changes : Nat := 0

namespace Inventory

/-- The inventory with an artifact at a relpath, or with none there. -/
def set (i : Inventory) (relpath : String) : Option Artifact → Inventory
  | some a => ⟨i.artifacts.insert relpath a, i.changes + 1⟩
  | none => ⟨i.artifacts.erase relpath, i.changes + 1⟩

theorem changes_set (i : Inventory) (relpath : String) (now : Option Artifact) :
    (i.set relpath now).changes = i.changes + 1 := by
  cases now <;> rfl

theorem getElem?_set (i : Inventory) (relpath other : String) (now : Option Artifact) :
    (i.set relpath now).artifacts[other]?
      = if other = relpath then now else i.artifacts[other]? := by
  cases now with
  | none =>
      unfold set
      rw [Std.ExtTreeMap.getElem?_erase]
      simp only [Std.LawfulEqCmp.compare_eq_iff_eq, @eq_comm _ relpath]
  | some a =>
      unfold set
      rw [Std.ExtTreeMap.getElem?_insert]
      simp only [Std.LawfulEqCmp.compare_eq_iff_eq, @eq_comm _ relpath]

end Inventory

namespace Artifact

variable {a : Artifact} {relpath : String}

/-- The relpath of an artifact is six names. -/
theorem BelongsAt.plain (h : a.BelongsAt relpath) :
    ∃ above name, Relpath.Plain relpath above name ∧ above.length = 5 := by
  obtain ⟨user, index, basename, algo, hnames, hspec, rfl⟩ := h
  exact ⟨_, basename, Relpath.plain_ofUpload hnames (.inr ⟨algo, a.content, hspec⟩), rfl⟩

theorem BelongsAt.length_place (h : a.BelongsAt relpath) : (Store.place relpath).length = 6 := by
  obtain ⟨above, name, hplain, hlen⟩ := h.plain
  rw [hplain.place, List.length_append, hlen]
  rfl

/-- Relpaths of one place are one. -/
theorem BelongsAt.inj {b : Artifact} {other : String} (h : a.BelongsAt relpath)
    (h' : b.BelongsAt other) (hplace : Store.place relpath = Store.place other) :
    relpath = other := by
  obtain ⟨above, name, hplain, -⟩ := h.plain
  obtain ⟨above', name', hplain', -⟩ := h'.plain
  rw [hplain.place, hplain'.place, ← hplain.pieces, ← hplain'.pieces] at hplace
  rw [← joinWith_split '/' relpath, ← joinWith_split '/' other]
  exact congrArg _ hplace

end Artifact

-- ===================================================== stores that hold an inventory

/-- The text of the record at a relpath, if there is one, is that of the
artifact there. -/
def Recorded : Option Artifact → Option String → Prop
  | none, text => text = none
  | some a, text => ∃ date, text = some (a.record date).toJson.compact

/-- An artifact is kept in a store: its content lies at the place of its
relpath. -/
structure Kept (store : Store) (relpath : String) (a : Artifact) : Prop where
  belongs : a.BelongsAt relpath
  counted : a.content.length ≤ Json.Reader.maxGathered
  stands : Stands store relpath
  node : store.files.node? (Store.place relpath) = some (.file a.content)

/-- A store whose records, blobs and files are those of an inventory. Files
lie at places of six names only; of directories there may be any, but at
such places there are only those of the store that it was at first. -/
structure Holds (first store : Store) (i : Inventory) : Prop where
  root : store.root = first.root
  cwd : store.cwd = first.cwd
  serial : store.index.serial = some (toString (UInt64.ofNat i.changes))
  records : ∀ relpath,
    Recorded i.artifacts[relpath]? store.index.records[Entry.keyOf relpath]?
  blobs : ∀ relpath, store.index.blobs.contains relpath = i.artifacts[relpath]?.isSome
  kept : ∀ relpath a, i.artifacts[relpath]? = some a → Kept store relpath a
  closed : store.files.Closed
  files : ∀ q content, store.files.node? q = some (.file content) → q.length = 6
  dirs : ∀ q, q.length = 6 →
    (store.files.node? q = some .dir ↔ first.files.node? q = some .dir)

namespace Holds

variable {first store after : Store} {i : Inventory} {relpath : String} {a : Artifact}

/-- The transaction that starts in such a store. -/
def started (store : Store) (i : Inventory) (writable : Bool) : Transaction :=
  Site.fresh store (UInt64.ofNat i.changes) writable

theorem start (h : Holds first store i) (writable : Bool) :
    Transaction.start store writable = .ok (started store i writable) :=
  Site.start_eq h.serial writable

-- ===================================================== what is read

/-- The handle on a relpath has the record of the artifact that is there. -/
theorem load (h : Holds first store i) (writable : Bool) (algo : Digest.Algo) (relpath : String) :
    match i.artifacts[relpath]? with
    | none => Entry.load (started store i writable) store algo relpath = .ok none
    | some a => ∃ date, Entry.load (started store i writable) store algo relpath
        = .ok (some ⟨relpath, a.record date, algo⟩) := by
  have hrecord := h.records relpath
  have hpending : (started store i writable).records[Entry.keyOf relpath]? = none :=
    Std.ExtTreeMap.getElem?_empty
  have hindex : (started store i writable).observed store = store.index := rfl
  cases hfound : i.artifacts[relpath]? with
  | none =>
      rw [hfound] at hrecord
      dsimp only
      unfold Entry.load Transaction.get
      rw [hpending, hindex]
      dsimp only
      rw [show store.index.records[Entry.keyOf relpath]? = none from hrecord]
  | some a =>
      rw [hfound] at hrecord
      obtain ⟨date, htext⟩ := hrecord
      have hcounted : (a.record date).Counted := fun n hn =>
        Option.some.inj hn ▸ (h.kept relpath a hfound).counted
      exact ⟨date, Entry.load_committed hpending htext hcounted algo⟩

/-- The content at a relpath is that of the artifact that is there. -/
theorem blob (h : Holds first store i) (writable : Bool) (hfound : i.artifacts[relpath]? = some a) :
    (started store i writable).getBlob store relpath = .ok (some a.content)
      ∧ (started store i writable).blobSize store relpath = .ok (some a.content.length) := by
  obtain ⟨-, -, hstands, hnode⟩ := h.kept relpath a hfound
  have hview : (started store i writable).view = some store.index := rfl
  have hseen := seen_eq hview Std.ExtTreeMap.getElem?_empty h.closed fun _ => hstands
  rw [h.blobs, hfound, hnode] at hseen
  exact ⟨congrArg Seen.content hseen, congrArg Seen.size hseen⟩

/-- What a link leads to is no artifact with a URL, so it is fetched from the
URL of the link. -/
theorem ofLink (h : Holds first store i) (algo : Digest.Algo) (link : Link) :
    ∃ e tx, Entry.ofLink (started store i true) store algo link = .ok (e, tx)
      ∧ tx.writable = true ∧ e.record.url = some link.withoutFragment := by
  have hload := h.load true algo link.relpath
  have hmap : ∀ found : Option Entry,
      Entry.load (started store i true) store algo link.relpath = .ok found →
      ((found.map Entry.record).getD {}).url = none →
      ∃ e tx, Entry.ofLink (started store i true) store algo link = .ok (e, tx)
        ∧ tx.writable = true ∧ e.record.url = some link.withoutFragment := by
    intro found hfound hurl
    have hdescribed : (Entry.describedBy link ((found.map Entry.record).getD {})).url
        = some link.withoutFragment := by
      unfold Entry.describedBy
      dsimp only
      rw [hurl]
      rfl
    unfold Entry.ofLink Entry.persist Transaction.set
    rw [hfound]
    dsimp only
    rw [Entry.change_of_writable (by exact rfl)]
    split
    · exact ⟨_, _, rfl, rfl, hdescribed⟩
    · exact ⟨_, _, rfl, rfl, hdescribed⟩
  cases hfound : i.artifacts[link.relpath]? with
  | none =>
      rw [hfound] at hload
      exact hmap _ hload rfl
  | some a =>
      rw [hfound] at hload
      obtain ⟨date, hload⟩ := hload
      exact hmap _ hload rfl

/-- A record is there just for the artifacts. -/
theorem mem_records (h : Holds first store i) (relpath : String) :
    Entry.keyOf relpath ∈ store.index.records ↔ relpath ∈ i.artifacts := by
  rw [Std.ExtTreeMap.mem_iff_isSome_getElem?, Std.ExtTreeMap.mem_iff_isSome_getElem?]
  have hrecord := h.records relpath
  cases hfound : i.artifacts[relpath]? with
  | none =>
      rw [hfound] at hrecord
      rw [show store.index.records[Entry.keyOf relpath]? = none from hrecord]
      exact Iff.rfl
  | some a =>
      rw [hfound] at hrecord
      obtain ⟨date, htext⟩ := hrecord
      rw [htext]
      exact iff_of_true rfl rfl

/-- The relpaths that have a record are those of the artifacts, in order. -/
theorem relpaths (h : Holds first store i) (writable : Bool) :
    Entry.relpaths (started store i writable) store = i.artifacts.keys := by
  refine eq_of_sorted (Entry.relpaths_ordered ..) (keys_sorted _) fun relpath => ?_
  have hpending : (started store i writable).records[Entry.keyOf relpath]? = none :=
    Std.ExtTreeMap.getElem?_empty
  have hindex : (started store i writable).observed store = store.index := rfl
  rw [Entry.mem_relpaths, mem_keys, hpending, hindex, Std.ExtTreeMap.mem_keys, ← h.mem_records]
  exact and_iff_right (startsWith_iff.2 ⟨relpath, rfl⟩)

-- ===================================================== what is written

/-- What an upload or a removal writes. -/
def patch (relpath date : String) (now : Option Artifact) : Entry.Patch :=
  ⟨relpath, now.map fun a => a.record date, some (now.map fun a => a.content)⟩

/-- The transaction that makes such a change. -/
def changed (store : Store) (i : Inventory) (relpath date : String) (now : Option Artifact) :
    Transaction :=
  (patch relpath date now).apply (started store i true)

variable {now : Option Artifact} {date : String}

theorem view_changed (store : Store) (i : Inventory) (relpath date : String)
    (now : Option Artifact) : (changed store i relpath date now).view = some store.index := rfl

theorem staged_changed (store : Store) (i : Inventory) (relpath date : String) (a : Artifact) :
    (changed store i relpath date (some a)).staged = [(relpath, a.content)] := rfl

theorem removals_changed (store : Store) (i : Inventory) (relpath date : String) (a : Artifact) :
    (changed store i relpath date (some a)).removals = [] := rfl

theorem pends_changed (hvalid : Relpath.isValid relpath = true) :
    (changed store i relpath date now).Pends := by
  intro other content hblob
  have hblobs : (changed store i relpath date now).blobs
      = (∅ : Std.ExtTreeMap String (Option Bytes)).insert relpath
        (now.map fun a => a.content) := rfl
  rw [hblobs, Std.ExtTreeMap.getElem?_insert] at hblob
  split at hblob
  · next heq => rwa [← Std.LawfulEqCmp.eq_of_compare heq]
  · cases hblob

/-- The index with the change in it. -/
theorem overlay_changed (h : Holds first store i) (relpath date : String)
    (now : Option Artifact) :
    ((changed store i relpath date now).overlay store.index).serial
        = some (toString (UInt64.ofNat (i.changes + 1)))
      ∧ (∀ other,
        ((changed store i relpath date now).overlay store.index).records[Entry.keyOf other]?
          = if other = relpath then now.map fun a => (a.record date).toJson.compact
            else store.index.records[Entry.keyOf other]?)
      ∧ ∀ other, ((changed store i relpath date now).overlay store.index).blobs.contains other
        = if other = relpath then now.isSome else store.index.blobs.contains other := by
  have hrecords : (changed store i relpath date now).records
      = (∅ : Std.ExtTreeMap String (Option Json)).insert (Entry.keyOf relpath)
        ((now.map fun a => a.record date).map FileRecord.toJson) := rfl
  have hblobs : (changed store i relpath date now).blobs
      = (∅ : Std.ExtTreeMap String (Option Bytes)).insert relpath
        (now.map fun a => a.content) := rfl
  refine ⟨?_, fun other => ?_, fun other => ?_⟩
  · unfold overlay
    dsimp only
    rw [h.serial, UInt64.ofNat_add]
    rfl
  · rw [getElem?_overlay, hrecords, Std.ExtTreeMap.getElem?_insert]
    by_cases hother : other = relpath
    · subst hother
      cases now <;> simp
    · have hkey : Entry.keyOf relpath ≠ Entry.keyOf other := fun heq =>
        hother (Entry.keyOf_inj heq).symm
      simp [hkey, hother]
  · rw [contains_overlay, hblobs, Std.ExtTreeMap.getElem?_insert]
    by_cases hother : other = relpath
    · subst hother
      cases now <;> simp
    · simp [Ne.symm hother, hother]

/-- The store in which a change is made, with the files that it leaves. -/
def changedStore (store : Store) (i : Inventory) (relpath date : String) (now : Option Artifact)
    (files : Tree) : Store :=
  { store with index := (changed store i relpath date now).overlay store.index, files }

/-- It holds the inventory with the change, if elsewhere there is nothing new
but directories above artifacts. -/
theorem set (h : Holds first store i) (hbelongs : ∃ a : Artifact, a.BelongsAt relpath)
    {files : Tree} (hclosed : files.Closed) (hdirs : KeepsDirs store.files files)
    (hfree : store.files.node? (Store.place relpath) ≠ some .dir)
    (hnode : files.node? (Store.place relpath) = now.map fun a => .file a.content)
    (helse : ∀ q, q ≠ Store.place relpath → files.node? q = store.files.node? q
      ∨ files.node? q = some .dir ∧ q.length < 6)
    (hkept : ∀ a, now = some a → a.BelongsAt relpath ∧ a.content.length ≤ Json.Reader.maxGathered
      ∧ Stands { store with files } relpath) :
    Holds first (changedStore store i relpath date now files) (i.set relpath now) := by
  obtain ⟨b, hb⟩ := hbelongs
  obtain ⟨hserial, hrecords, hblobs⟩ := h.overlay_changed relpath date now
  have hother : ∀ q, q ≠ Store.place relpath → q.length = 6 →
      files.node? q = store.files.node? q := by
    intro q hq hlen
    rcases helse q hq with hsame | ⟨-, hshort⟩
    · exact hsame
    · omega
  refine ⟨h.root, h.cwd, ?_, fun other => ?_, fun other => ?_, fun other a hfound => ?_,
    hclosed, fun q content hfile => ?_, fun q hq => ?_⟩
  · rw [i.changes_set]
    exact hserial
  · rw [i.getElem?_set]
    unfold changedStore
    rw [hrecords]
    split
    · cases now with
      | none => exact rfl
      | some a => exact ⟨date, rfl⟩
    · exact h.records other
  · rw [i.getElem?_set]
    unfold changedStore
    rw [hblobs]
    split
    · rfl
    · exact h.blobs other
  · rw [i.getElem?_set] at hfound
    split at hfound
    · next heq =>
      rw [heq]
      obtain ⟨hbelongs, hcounted, hstands⟩ := hkept a hfound
      refine ⟨hbelongs, hcounted, hstands.mono rfl (.refl _), ?_⟩
      rw [show (changedStore store i relpath date now files).files = files from rfl, hnode, hfound]
      rfl
    · next hne =>
      obtain ⟨hbelongs, hcounted, hstands, hlies⟩ := h.kept other a hfound
      have hplace : Store.place other ≠ Store.place relpath := fun heq =>
        hne (hbelongs.inj hb heq)
      exact ⟨hbelongs, hcounted, hstands.mono rfl hdirs,
        (hother _ hplace hbelongs.length_place).trans hlies⟩
  · by_cases hplace : q = Store.place relpath
    · rw [hplace, hb.length_place]
    · rcases helse q hplace with hsame | ⟨hdir, -⟩
      · exact h.files q content (hsame.symm.trans hfile)
      · cases hdir.symm.trans hfile
  · show files.node? q = some .dir ↔ _
    by_cases hplace : q = Store.place relpath
    · rw [hplace] at hq ⊢
      rw [← h.dirs _ hq, hnode]
      refine iff_of_false ?_ hfree
      cases now <;> simp
    · rw [hother q hplace hq, h.dirs q hq]

/-- A store in which more directories are made holds the inventory still. -/
theorem grow (h : Holds first store i) (hroot : after.root = store.root)
    (hcwd : after.cwd = store.cwd) (hindex : after.index = store.index)
    (hgrown : Grown store.files after.files (·.length < 6)) : Holds first after i := by
  have hnode : ∀ q, q.length = 6 → after.files.node? q = store.files.node? q := by
    intro q hq
    rcases hgrown.node q with hsame | ⟨-, -, hlen⟩
    · exact hsame
    · omega
  refine ⟨hroot.trans h.root, hcwd.trans h.cwd, by rw [hindex, h.serial],
    fun other => by rw [hindex]; exact h.records other, fun other => by rw [hindex, h.blobs],
    fun other a hfound => ?_, hgrown.closed h.closed,
    fun q content hq => ?_, fun q hq => by rw [hnode q hq, h.dirs q hq]⟩
  · obtain ⟨hbelongs, hcounted, hstands, hlies⟩ := h.kept other a hfound
    refine ⟨hbelongs, hcounted, hstands.mono hroot fun q => hgrown.dir, ?_⟩
    rw [hnode _ hbelongs.length_place, hlies]
  · rcases hgrown.node q with hsame | ⟨-, hdir, -⟩
    · exact h.files q content (hsame.symm.trans hq)
    · rw [hdir] at hq
      cases hq

-- ===================================================== commits

/-- Where an artifact is kept is told by the store that it was at first. -/
theorem refusal?_eq (h : Holds first store i) (hbelongs : a.BelongsAt relpath) :
    store.refusal? relpath = first.refusal? relpath := by
  have hdirs := h.dirs _ hbelongs.length_place
  unfold Store.refusal? Store.dirRefusal? Store.fileRefusal?
  rw [filesRoot_congr h.root, scratchPath_congr h.root h.cwd]
  simp only [hdirs]

/-- There are no files above artifacts. -/
theorem clear (h : Holds first store i) {above : List String} (hlen : above.length = 5) :
    Clear store above := by
  intro q content hprefix hfile
  have hle := hprefix.length_le
  rw [h.files q content hfile, hlen] at hle
  omega

/-- Above an artifact there are places of less names. -/
theorem lt_of_isAbove (hbelongs : a.BelongsAt relpath) {q : Place}
    (hq : isAbove [(relpath, a.content)] q = true) : q.length < 6 := by
  have hprefix : q <+: (Store.place relpath).dropLast := by simpa [isAbove] using hq
  have hle := hprefix.length_le
  rw [List.length_dropLast, hbelongs.length_place] at hle
  omega

/-- An upload that is refused changes nothing that the inventory tells. -/
theorem commit_refused {e : StoreError} (h : Holds first store i) (hbelongs : a.BelongsAt relpath)
    (date : String) (hrefusal : first.refusal? relpath = some e) :
    ∃ after tx, (changed store i relpath date (some a)).commit store = (after, tx, .error e)
      ∧ KeepsDirs store.files after.files ∧ Holds first after i := by
  obtain ⟨above, name, hplain, hlen⟩ := hbelongs.plain
  have hpends : (changed store i relpath date (some a)).Pends := pends_changed hplain.valid
  rcases commit_cases (view_changed store i relpath date (some a)) store with
    ⟨hclean, -⟩ | ⟨-, after, e', hrefused, hcommit⟩ | ⟨-, after, hplaced, -⟩
  · have hnil := staged_eq_nil hclean
    rw [staged_changed] at hnil
    cases hnil
  · have he := hrefused.one hplain (staged_changed ..) h.closed (h.clear hlen)
    rw [h.refusal?_eq hbelongs, hrefusal] at he
    cases he
    obtain ⟨⟨hnode, hdirs, hclosed, -⟩, hprefix, hne⟩ := hrefused.laid hpends
    rw [staged_changed] at hprefix hne
    have hnil : (changed store i relpath date (some a)).laid store = [] := by
      rcases List.prefix_concat_iff.1
        (show _ <+: [] ++ [(relpath, a.content)] from hprefix) with heq | hnil
      · exact absurd heq hne
      · exact List.prefix_nil.1 hnil
    refine ⟨after, _, hcommit, hdirs, h.grow (by rw [hrefused.frame]) (by rw [hrefused.frame])
      (by rw [hrefused.frame]) ⟨fun q => ?_, hclosed⟩⟩
    rw [hnode]
    unfold laidAt
    rw [hnil, List.foldl_nil]
    split
    · next hmakes =>
      obtain ⟨hnone, habove⟩ := makes_spec hpends hmakes
      exact .inr ⟨hnone, rfl, lt_of_isAbove hbelongs habove⟩
    · exact .inl rfl
  · have hnone := hplaced.one hplain (staged_changed ..) h.closed (h.clear hlen)
    rw [h.refusal?_eq hbelongs, hrefusal] at hnone
    cases hnone

/-- Any other upload puts its artifact. -/
theorem commit_put (h : Holds first store i) (hbelongs : a.BelongsAt relpath)
    (hcounted : a.content.length ≤ Json.Reader.maxGathered) (date : String)
    (hrefusal : first.refusal? relpath = none) :
    ∃ after tx, (changed store i relpath date (some a)).commit store
        = (after, tx, .ok (UInt64.ofNat (i.changes + 1)))
      ∧ KeepsDirs store.files after.files ∧ Holds first after (i.set relpath (some a)) := by
  obtain ⟨above, name, hplain, hlen⟩ := hbelongs.plain
  have hpends : (changed store i relpath date (some a)).Pends := pends_changed hplain.valid
  rcases commit_cases (view_changed store i relpath date (some a)) store with
    ⟨hclean, -⟩ | ⟨-, after, e', hrefused, -⟩ | ⟨-, after, hplaced, hcommit⟩
  · have hnil := staged_eq_nil hclean
    rw [staged_changed] at hnil
    cases hnil
  · have he := hrefused.one hplain (staged_changed ..) h.closed (h.clear hlen)
    rw [h.refusal?_eq hbelongs, hrefusal] at he
    cases he
  · obtain ⟨⟨-, hdirs, hclosed, hstands⟩, hlaid⟩ := hplaced.laid hpends
    have hnode := hplaced.node hpends
    rw [hlaid] at hstands
    rw [removals_changed, sweep_nil] at hcommit
    have hat : after.files.node? (Store.place relpath) = some (.file a.content) := by
      rw [hnode, staged_changed, List.foldl_cons, List.foldl_nil]
      exact if_pos rfl
    have helse : ∀ q, q ≠ Store.place relpath → after.files.node? q
        = if isAbove [(relpath, a.content)] q then some .dir else store.files.node? q := by
      intro q hq
      rw [hnode, staged_changed, List.foldl_cons, List.foldl_nil]
      exact if_neg (Ne.symm hq)
    have hafter : { after with
        index := (changed store i relpath date (some a)).overlay store.index }
        = changedStore store i relpath date (some a) after.files := by
      unfold changedStore
      rw [hplaced.frame]
    have hserial : (changed store i relpath date (some a)).serial + 1
        = UInt64.ofNat (i.changes + 1) := (UInt64.ofNat_add ..).symm
    rw [hafter, hserial] at hcommit
    refine ⟨_, _, hcommit, hdirs, ?_⟩
    refine h.set ⟨a, hbelongs⟩ (hclosed h.closed) hdirs ?_ hat (fun q hq => ?_) fun b hb => ?_
    · refine Store.ne_dir_of_refusal? ?_
      rw [h.refusal?_eq hbelongs, hrefusal]
    · rw [helse q hq]
      split
      · next habove => exact .inr ⟨rfl, lt_of_isAbove hbelongs habove⟩
      · exact .inl rfl
    · cases hb
      have hstands := hstands (relpath, a.content) (List.mem_singleton_self _)
      exact ⟨hbelongs, hcounted, hstands.mono (by rw [hplaced.frame]) (.refl _)⟩

/-- A removal takes away what is kept. -/
theorem commit_remove (h : Holds first store i) (hfound : i.artifacts[relpath]? = some a)
    (date : String) :
    ∃ after tx, (changed store i relpath date none).commit store
        = (after, tx, .ok (UInt64.ofNat (i.changes + 1)))
      ∧ KeepsDirs store.files after.files ∧ Holds first after (i.set relpath none) := by
  obtain ⟨hbelongs, -, hstands, hlies⟩ := h.kept relpath a hfound
  have hvalid : ∀ other ∈ [relpath], Relpath.isValid other = true := by
    intro other hother
    rw [List.mem_singleton.1 hother]
    exact hstands.valid
  have hcommit : (changed store i relpath date none).commit store
      = (changedStore store i relpath date none (sweep store [relpath]).files,
        (changed store i relpath date none).ended
          ((changed store i relpath date none).serial + 1),
        .ok ((changed store i relpath date none).serial + 1)) := rfl
  have hserial : (changed store i relpath date none).serial + 1
      = UInt64.ofNat (i.changes + 1) := (UInt64.ofNat_add ..).symm
  have hempties : ∀ q, [relpath].any (empties store.filesRoot q)
      = decide (Store.place relpath = q) := by
    intro q
    unfold empties
    rw [List.any_cons, List.any_nil, Bool.or_false, hstands.taken, hstands.file]
    rfl
  have hnode : ∀ q, (sweep store [relpath]).files.node? q
      = swept (decide (Store.place relpath = q)) (store.files.node? q) := by
    intro q
    rw [node?_sweep h.closed hvalid, hempties]
  have helse : ∀ q, q ≠ Store.place relpath →
      (sweep store [relpath]).files.node? q = store.files.node? q := by
    intro q hq
    rw [hnode, decide_eq_false (Ne.symm hq)]
    cases store.files.node? q with
    | none => rfl
    | some node => cases node <;> rfl
  have hat : (sweep store [relpath]).files.node? (Store.place relpath) = none := by
    rw [hnode, hlies, decide_eq_true rfl]
    rfl
  have hdirs : KeepsDirs store.files (sweep store [relpath]).files := sweep_dirs h.closed hvalid
  rw [hserial] at hcommit
  refine ⟨_, _, hcommit, hdirs, ?_⟩
  exact h.set ⟨a, hbelongs⟩ (sweep_closed h.closed hvalid) hdirs
    (by rw [hlies]; exact fun hdir => by cases hdir) hat (fun q hq => .inl (helse q hq))
    fun b hb => by cases hb

-- ===================================================== uploads and removals

/-- An upload writes its artifact under its relpath. -/
theorem upload_eq (h : Holds first store i) {user index basename : String}
    (hnames : Entry.isUpload user index basename = true) (algo : Digest.Algo) (date : String)
    (a : Artifact) (hspec : a.spec = HashSpec.ofContent algo a.content) :
    Entry.upload (started store i true) store algo date user index basename a.content
      = .ok (⟨Relpath.ofUpload user index a.spec basename, a.record date, algo⟩,
        changed store i (Relpath.ofUpload user index a.spec basename) date (some a)) := by
  have hbelongs : a.BelongsAt (Relpath.ofUpload user index a.spec basename) :=
    ⟨user, index, basename, algo, hnames, hspec, rfl⟩
  obtain ⟨above, name, hplain, -⟩ := hbelongs.plain
  have hload := h.load true algo (Relpath.ofUpload user index a.spec basename)
  -- whatever record there was, nothing of it is left
  have hnew : ∃ record : FileRecord,
      Entry.loadOrNew (started store i true) store algo
          (Relpath.ofUpload user index a.spec basename)
        = .ok ⟨Relpath.ofUpload user index a.spec basename, record, algo⟩
      ∧ FileRecord.holding { record with hash := some a.spec.toText } a.content date
        = a.record date := by
    unfold Entry.loadOrNew
    cases hfound : i.artifacts[Relpath.ofUpload user index a.spec basename]? with
    | none =>
        rw [hfound] at hload
        dsimp only at hload
        rw [hload]
        exact ⟨{}, rfl, rfl⟩
    | some b =>
        rw [hfound] at hload
        obtain ⟨date', hload⟩ := hload
        rw [hload]
        exact ⟨b.record date', rfl, rfl⟩
  obtain ⟨record, hloaded, hrecord⟩ := hnew
  rw [hspec] at hloaded hrecord
  rw [Entry.upload_eq rfl hnames hloaded (by exact hspec ▸ hplain.valid)]
  dsimp only
  rw [hrecord, hspec]
  rfl

/-- A removal deletes the record and the content. -/
theorem delete_eq (hvalid : Relpath.isValid relpath = true) (record : FileRecord)
    (algo : Digest.Algo) (date : String) :
    (Entry.mk relpath record algo).delete (started store i true)
      = ⟨⟨relpath, record, algo⟩, changed store i relpath date none, .ok ()⟩ := by
  unfold Entry.delete Transaction.delete deleteBlob
  rw [Entry.change_of_writable (by exact rfl)]
  dsimp only
  rw [Entry.changeBlob_valid (by exact rfl) hvalid]
  rfl

end Holds

end Depot
