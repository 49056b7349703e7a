/-
The three questions about a blob: whether there is one, what it holds, and how
long it is. Each goes its own way to the disk and fails in its own way there,
but all three tell of the blob that a transaction `Shows`: content that it has
set, or else the file that the path of a committed relpath leads to
(`hasBlob_iff`, `getBlob_eq_some_iff`, `blobSize_eq_some_iff`). Of a relpath
with neither they tell nothing, whatever lies on disk (`seen_of_uncommitted`).
-/
import Depot.Proofs.Store.Shelf

namespace Depot

open Files

namespace Files.Tree

variable {t : Tree} {pieces : List String}

/-- A path leads to a file. -/
def LeadsTo (t : Tree) (pieces : List String) (content : Bytes) : Prop :=
  ∃ place, t.walk pieces = .ok place ∧ t.file? place = some content

theorem isFile_iff : t.isFile pieces = true ↔ ∃ content, t.LeadsTo pieces content := by
  unfold isFile LeadsTo
  cases t.walk pieces with
  | error cause => simp
  | ok place => simp [Option.isSome_iff_exists]

theorem read_eq_ok_iff {content : Bytes} :
    t.read pieces = .ok content ↔ t.LeadsTo pieces content := by
  unfold read LeadsTo
  cases t.walk pieces with
  | error cause => simp
  | ok place => cases hfile : t.file? place <;> simp [hfile]

theorem size_eq_some_iff {n : Nat} :
    t.size pieces = .ok (some n) ↔ ∃ content, t.LeadsTo pieces content ∧ content.length = n := by
  unfold size LeadsTo
  cases t.walk pieces with
  | error cause => simp
  | ok place => simp

end Files.Tree

namespace Transaction

variable {tx : Transaction} {store : Store} {relpath : String} {content : Bytes}

/-- A transaction that has not changed a relpath looks it up on disk if it was
committed, and if its path is one that can be asked for. -/
structure LooksUp (tx : Transaction) (store : Store) (relpath : String) : Prop where
  valid : Relpath.isValid relpath = true
  committed : (tx.observed store).blobs.contains relpath = true
  taken : refusal? (Path.join store.filesRoot relpath) = none

/-- The blob that a transaction has at a relpath. -/
inductive Shows (tx : Transaction) (store : Store) (relpath : String) (content : Bytes) : Prop
  /-- It has set the content itself. -/
  | set (h : tx.blobs[relpath]? = some (some content))
  /-- It finds the content on disk. -/
  | found (hunchanged : tx.blobs[relpath]? = none) (hlooks : tx.LooksUp store relpath)
      (hleads : store.files.LeadsTo (Store.pieces relpath) content)

theorem shows_iff_of_pending {pending : Option Bytes} (h : tx.blobs[relpath]? = some pending) :
    tx.Shows store relpath content ↔ pending = some content := by
  constructor
  · rintro (hset | ⟨hunchanged⟩)
    · exact Option.some.inj (h.symm.trans hset)
    · rw [h] at hunchanged
      cases hunchanged
  · rintro rfl
    exact .set h

theorem shows_iff_of_unchanged (h : tx.blobs[relpath]? = none) :
    tx.Shows store relpath content
      ↔ tx.LooksUp store relpath ∧ store.files.LeadsTo (Store.pieces relpath) content := by
  constructor
  · rintro (hset | ⟨-, hlooks, hleads⟩)
    · rw [h] at hset
      cases hset
    · exact ⟨hlooks, hleads⟩
  · exact fun ⟨hlooks, hleads⟩ => .found h hlooks hleads

-- ===================================================== ways to the disk

theorem isCommitted_eq_true_iff : tx.isCommitted store relpath = .ok true ↔
    Relpath.isValid relpath = true ∧ (tx.observed store).blobs.contains relpath = true := by
  unfold isCommitted Store.blobPath
  cases Relpath.isValid relpath <;> simp

theorem looksUp_iff : tx.LooksUp store relpath ↔ tx.isCommitted store relpath = .ok true
    ∧ refusal? (Path.join store.filesRoot relpath) = none := by
  rw [isCommitted_eq_true_iff]
  exact ⟨fun ⟨hvalid, hcommitted, htaken⟩ => ⟨⟨hvalid, hcommitted⟩, htaken⟩,
    fun ⟨⟨hvalid, hcommitted⟩, htaken⟩ => ⟨hvalid, hcommitted, htaken⟩⟩

/-- Something is found on disk just if the relpath is looked up there and its
path leads to it. -/
theorem onDisk_eq_some_iff {α : Type} {look : List String → Except OsError (Option α)}
    {found : α} : tx.onDisk store relpath look = .ok (some found) ↔
      tx.LooksUp store relpath ∧ look (Store.pieces relpath) = .ok (some found) := by
  rw [looksUp_iff, and_assoc, ← reach_eq_ok_iff]
  unfold onDisk
  cases tx.isCommitted store relpath with
  | error e => simp
  | ok committed => cases committed with
    | false => simp
    | true =>
        -- a missing file alone is answered instead of refused, and the answer is none
        dsimp only
        cases reach (Path.join store.filesRoot relpath) (look (Store.pieces relpath)) with
        | ok answer => simp
        | error cause => cases cause <;> simp

-- ===================================================== the three questions

theorem hasBlob_iff : tx.hasBlob store relpath = true ↔
    ∃ content, tx.Shows store relpath content := by
  unfold hasBlob
  cases hpending : tx.blobs[relpath]? with
  | some pending =>
      simp only [shows_iff_of_pending hpending]
      exact Option.isSome_iff_exists
  | none =>
      simp only [shows_iff_of_unchanged hpending, exists_and_left, ← Tree.isFile_iff, looksUp_iff]
      cases tx.isCommitted store relpath with
      | error e => simp
      | ok committed => cases committed <;> simp

theorem getBlob_eq_some_iff : tx.getBlob store relpath = .ok (some content) ↔
    tx.Shows store relpath content := by
  unfold getBlob
  cases hpending : tx.blobs[relpath]? with
  | some pending =>
      rw [shows_iff_of_pending hpending]
      exact ⟨Except.ok.inj, congrArg Except.ok⟩
  | none =>
      rw [shows_iff_of_unchanged hpending, onDisk_eq_some_iff, ← Tree.read_eq_ok_iff]
      refine and_congr_right fun _ => ?_
      cases store.files.read (Store.pieces relpath) <;> simp [Except.map]

theorem blobSize_eq_some_iff {n : Nat} : tx.blobSize store relpath = .ok (some n) ↔
    ∃ content, tx.Shows store relpath content ∧ content.length = n := by
  unfold blobSize
  cases hpending : tx.blobs[relpath]? with
  | some pending =>
      simp only [shows_iff_of_pending hpending]
      simp
  | none =>
      simp only [shows_iff_of_unchanged hpending, and_assoc, exists_and_left,
        ← Tree.size_eq_some_iff]
      exact onDisk_eq_some_iff

/-- Where nothing is set and nothing committed, the disk is not asked. -/
theorem seen_of_uncommitted (hunchanged : tx.blobs[relpath]? = none)
    (hcommitted : (tx.observed store).blobs.contains relpath = false) :
    tx.seen store relpath = .absent relpath := by
  unfold seen hasBlob getBlob blobSize onDisk isCommitted Store.blobPath Seen.absent
  rw [hunchanged, hcommitted]
  cases Relpath.isValid relpath <;> rfl

/-- A transaction that says that there is a blob tells its content and its
size, and one that tells either says that there is one; the size is the length
of the content, and the content is what is set or lies on disk. Where no
content is set and none committed, all three answers are that there is none, or
that the relpath names no file, whatever lies on disk. -/
theorem lookups_agree (tx : Transaction) (store : Store) (relpath : String) :
    (tx.hasBlob store relpath = true ↔ ∃ n, tx.blobSize store relpath = .ok (some n))
      ∧ (tx.hasBlob store relpath = true ↔
          ∃ content, tx.getBlob store relpath = .ok (some content))
      ∧ (∀ n content, tx.blobSize store relpath = .ok (some n) →
          tx.getBlob store relpath = .ok (some content) → n = content.length)
      ∧ (∀ content, tx.getBlob store relpath = .ok (some content) ↔
          tx.Shows store relpath content)
      ∧ (tx.blobs[relpath]? = none → (tx.observed store).blobs.contains relpath = false →
          tx.seen store relpath = .absent relpath) := by
  refine ⟨?_, ?_, fun n content hsize hget => ?_, fun content => getBlob_eq_some_iff,
    seen_of_uncommitted⟩
  · simp only [hasBlob_iff, blobSize_eq_some_iff]
    exact ⟨fun ⟨content, h⟩ => ⟨_, content, h, rfl⟩, fun ⟨_, content, h, _⟩ => ⟨content, h⟩⟩
  · simp only [hasBlob_iff, getBlob_eq_some_iff]
  · obtain ⟨other, hshows, rfl⟩ := blobSize_eq_some_iff.1 hsize
    rw [getBlob_eq_some_iff.2 hshows] at hget
    cases hget
    rfl

/-- A disk with two files, and an index that knows of one of them, of the
directory above it, of something below it, and of what is missing. -/
def littered : Store where
  root := "depot"
  index.blobs := (((Std.ExtTreeSet.insert ∅ "a").insert "a/b").insert "a/b/c").insert "gone"
  files.nodes := ((Std.ExtTreeMap.insert ∅ ["a"] .dir).insert ["a", "b"] (.file [1, 2])).insert
    ["stray"] (.file [3])

/-- A reader of what is committed there. -/
def visitor : Transaction where
  writable := false
  serial := 0
  view := some littered.index

/-- Reading fails at a directory and below a file, and finds nothing where
nothing is; that there is no blob is said in each case. A stray file is none. -/
theorem lookups_agree_on_litter :
    visitor.seen littered "a/b" = ⟨true, .ok (some [1, 2]), .ok (some 2)⟩
      ∧ visitor.getBlob littered "a" = .error (.io "depot/+files/a" .isDirectory)
      ∧ visitor.getBlob littered "a/b/c" = .error (.io "depot/+files/a/b/c" .notDirectory)
      ∧ visitor.getBlob littered "gone" = .ok none
      ∧ (∀ relpath ∈ ["a", "a/b/c", "gone"], visitor.hasBlob littered relpath = false
          ∧ ∀ n, visitor.blobSize littered relpath ≠ .ok (some n))
      ∧ littered.files.read ["stray"] = .ok [3]
      ∧ visitor.seen littered "stray" = ⟨false, .ok none, .ok none⟩ := by
  have hfile : visitor.getBlob littered "a/b" = .ok (some [1, 2]) := rfl
  have hnone : ∀ relpath, (∀ content, visitor.getBlob littered relpath ≠ .ok (some content)) →
      visitor.hasBlob littered relpath = false
        ∧ ∀ n, visitor.blobSize littered relpath ≠ .ok (some n) := by
    intro relpath hget
    obtain ⟨hsize, hcontent, -⟩ := lookups_agree visitor littered relpath
    have hhas : visitor.hasBlob littered relpath ≠ true := fun h => (hcontent.1 h).elim hget
    exact ⟨Bool.eq_false_iff.2 hhas, fun n hn => hhas (hsize.2 ⟨n, hn⟩)⟩
  obtain ⟨hsize, hcontent, hlength, -⟩ := lookups_agree visitor littered "a/b"
  have hhas : visitor.hasBlob littered "a/b" = true := hcontent.2 ⟨_, hfile⟩
  obtain ⟨n, hn⟩ := hsize.1 hhas
  obtain rfl : n = 2 := hlength _ _ hn hfile
  obtain ⟨-, -, -, -, hstray⟩ := lookups_agree visitor littered "stray"
  refine ⟨?_, rfl, rfl, rfl, ?_, rfl, hstray rfl rfl⟩
  · unfold seen
    rw [hhas, hfile, hn]
  · simp only [List.forall_mem_cons, List.not_mem_nil, IsEmpty.forall_iff, implies_true, and_true]
    exact ⟨hnone "a" nofun, hnone "a/b/c" nofun, hnone "gone" nofun⟩

end Transaction

end Depot
