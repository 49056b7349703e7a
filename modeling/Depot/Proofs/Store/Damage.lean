/-
What a refused commit damages. The index and with it the records, the
committed relpaths and the serial are as before, and no temporary file is
left. Of the blobs that were to be set some are in their places, those
that come first; the other files are as before, also those that were to be
deleted; and where nothing was there may be directories above the blobs.
All this holds wherever the attempt stops, be it for the operating system
or for a disk that fails (`damage_of_refused`).
-/
import Depot.Proofs.Store.Attempt
import Depot.Proofs.Store.Publishing

namespace Depot.Transaction

open Files Files.Tree

variable {scratch : Scratches} {tx left : Transaction} {store after : Store} {e : StoreError}

-- ===================================================== transactions under way

/-- A transaction that has begun on some store and not ended. Its holder
may have made changes, and tried in vain to commit them. -/
inductive Underway : Transaction → Prop
  | start {store : Store} {writable : Bool} {tx : Transaction}
      (hstart : start store writable = .ok tx) : Underway tx
  | edit {tx tx' : Transaction} {edit : Edit} (h : Underway tx) (hedit : tx.edit edit = .ok tx') :
      Underway tx'
  | refused {scratch : Scratches} {store after : Store} {tx left : Transaction} {e : StoreError}
      (h : Underway tx) (hattempt : tx.attempt scratch store = (after, left, .error e)) :
      Underway left

/-- An attempt that is refused changes no more than the view. -/
theorem left_of_attempt (h : tx.attempt scratch store = (after, left, .error e)) :
    left = tx ∨ left = tx.written := by
  unfold attempt at h
  split at h
  · unfold commit at h
    split at h
    · cases h
      exact .inl rfl
    · cases h
  · split at h
    · cases h
      exact .inl rfl
    · dsimp only at h
      split at h
      · cases h
        exact .inr rfl
      · split at h
        · cases h
        · cases h
          exact .inr rfl

namespace Underway

theorem live (h : Underway tx) : ∃ view, tx.view = some view := by
  induction h with
  | start hstart =>
      obtain ⟨-, serial, -, rfl⟩ := start_eq_ok hstart
      exact ⟨_, rfl⟩
  | edit _ hedit ih =>
      obtain ⟨view, hview⟩ := ih
      rw [(Site.edit_eq hedit).2]
      exact ⟨view, hview⟩
  | refused _ hattempt ih =>
      obtain ⟨view, hview⟩ := ih
      rcases left_of_attempt hattempt with rfl | rfl
      · exact ⟨view, hview⟩
      · unfold written
        rw [hview]
        exact ⟨_, rfl⟩

theorem pends (h : Underway tx) : tx.Pends := by
  induction h with
  | start hstart =>
      obtain ⟨-, serial, -, rfl⟩ := start_eq_ok hstart
      exact fun relpath content hpending => by simp at hpending
  | edit _ hedit ih => exact Site.pends_edit ih hedit
  | refused _ hattempt ih =>
      rcases left_of_attempt hattempt with rfl | rfl
      · exact ih
      · exact ih

end Underway

-- ===================================================== what is damaged

/-- The store after an attempt that has moved some of the blobs. -/
structure Damaged (tx : Transaction) (store after : Store) (moved : List (String × Bytes)) :
    Prop where
  frame : after = { store with files := after.files }
  part : moved <+: tx.staged
  proper : moved ≠ tx.staged
  node : ∀ q, after.files.node? q = moved.foldl (shelve q) (store.files.node? q)
    ∨ (store.files.node? q = none ∧ after.files.node? q = some .dir
        ∧ isAbove tx.staged q = true ∧ ∀ blob ∈ moved, Store.place blob.1 ≠ q)
  dirs : KeepsDirs store.files after.files
  closed : store.files.Closed → after.files.Closed

/-- Blobs of a transaction that are staged, all or some. -/
theorem grown_front (hpends : tx.Pends) {front : List (String × Bytes)}
    (hfront : front <+: tx.staged) (store : Store) :
    Grown store.files (stageAll store front).1.files (isAbove tx.staged · = true) := by
  refine (stageAll_grown (fun blob hmem => hpends.staged blob (hfront.mem hmem)) store).mono ?_
  intro q habove
  obtain ⟨blob, hmem, hprefix⟩ := List.any_eq_true.1 habove
  exact List.any_eq_true.2 ⟨blob, hfront.mem hmem, hprefix⟩

/-- Where an attempt stops there is such damage. -/
theorem Stopped.damaged (h : Stopped scratch tx store after left e) (hpends : tx.Pends) :
    ∃ moved, tx.Damaged store after moved
      ∧ ((stageScratch scratch store [] tx.staged).2.2 ≠ .ok () → moved = []) := by
  cases h with
  | @staging front e hanswer hfront hall =>
      have hgrown := grown_front hpends hfront store
      refine ⟨[], ⟨stageAll_eq (Prod.eta _).symm, List.nil_prefix, fun hnil => ?_, fun q => ?_,
        fun q => hgrown.dir, hgrown.closed⟩, fun _ => rfl⟩
      · -- where there are no blobs nothing is refused
        rw [← hnil] at hanswer
        cases hanswer
      · refine (hgrown.node q).imp id fun hmade => ?_
        obtain ⟨hnone, hdir, habove⟩ := hmade
        exact ⟨hnone, hdir, habove, by simp⟩
  | @moving ready after front e hanswer hstage hfront hne hmove hall =>
      have hgrown := grown_front hpends (List.prefix_refl _) store
      obtain ⟨hmoved, -, hfull⟩ :=
        moveAll_spec (fun blob hmem => hpends.staged blob (hfront.mem hmem)) ready
      rw [hmove] at hmoved hfull
      rw [hfull.1 rfl] at hmoved
      rw [hstage] at hgrown
      refine ⟨front, ⟨?_, hfront, hne, fun q => ?_,
        KeepsDirs.trans (fun q => hgrown.dir) hmoved.dirs,
        fun hclosed => hmoved.closed (hgrown.closed hclosed)⟩, fun hnot => absurd hanswer hnot⟩
      · rw [moveAll_eq hmove, stageAll_eq hstage]
      · rw [hmoved.node]
        rcases hgrown.node q with hsame | ⟨hnone, hdir, habove⟩
        · rw [hsame]
          exact .inl rfl
        · rcases foldl_shelve front q with ⟨content, hfile⟩ | ⟨hne, hkept⟩
          · rw [hfile, hfile]
            exact .inl rfl
          · rw [hkept, hdir]
            exact .inr ⟨hnone, rfl, habove, hne⟩

/-- The content of the file at a place, in place of what was there, once a
blob is moved. -/
def overwrite (q : Place) (old : Option Bytes) (blob : String × Bytes) : Option Bytes :=
  if Store.place blob.1 = q then some blob.2 else old

/-- The content of what is a file. -/
def fileOf : Option Node → Option Bytes
  | some (.file content) => some content
  | _ => none

theorem file?_eq_fileOf (t : Tree) (q : Place) : t.file? q = fileOf (t.node? q) := rfl

theorem fileOf_foldl_shelve (blobs : List (String × Bytes)) (q : Place) (node : Option Node) :
    fileOf (blobs.foldl (shelve q) node) = blobs.foldl (overwrite q) (fileOf node) := by
  refine (List.foldl_hom fileOf fun node blob => ?_).symm
  unfold overwrite shelve
  split <;> rfl

/-- Blobs at other places do not matter. -/
theorem foldl_overwrite_of_ne {blobs : List (String × Bytes)} {q : Place}
    (h : ∀ blob ∈ blobs, Store.place blob.1 ≠ q) (old : Option Bytes) :
    blobs.foldl (overwrite q) old = old :=
  List.foldlRecOn (motive := (· = old)) blobs _ rfl fun _ hkept blob hmem =>
    (if_neg (h blob hmem)).trans hkept

/-- Where a file was, a file is left. -/
theorem isSome_foldl_overwrite (blobs : List (String × Bytes)) (q : Place) {old : Option Bytes}
    (h : old.isSome = true) : (blobs.foldl (overwrite q) old).isSome = true := by
  refine List.foldlRecOn (motive := (Option.isSome · = true)) blobs _ h fun old hsome blob _ => ?_
  unfold overwrite
  split
  · rfl
  · exact hsome

/-- No blob lies at a place of a temporary file, or below it. -/
theorem Fresh.notMem_place {blobs : List (String × Bytes)} (h : Fresh scratch blobs store)
    {blob other : String × Bytes} (hblob : blob ∈ blobs) (hother : other ∈ blobs) :
    (scratch blob.1).name ∉ Store.place other.1 :=
  fun hmem => h.unused blob hblob other hother (List.mem_filter.1 hmem).1

namespace Damaged

variable {moved : List (String × Bytes)} {q : Place}

/-- The files are those before, after writing what is moved. -/
theorem file? (h : tx.Damaged store after moved) (q : Place) :
    after.files.file? q = moved.foldl (overwrite q) (store.files.file? q) := by
  rw [file?_eq_fileOf, file?_eq_fileOf]
  rcases h.node q with hnode | ⟨hnone, hdir, -, hne⟩
  · rw [hnode, fileOf_foldl_shelve]
  · rw [hnone, hdir, foldl_overwrite_of_ne hne]
    rfl

/-- What is a directory was one, or is one of those above the blobs, where
nothing was. -/
theorem dir (h : tx.Damaged store after moved) (hdir : after.files.node? q = some .dir) :
    store.files.node? q = some .dir
      ∨ (store.files.node? q = none ∧ isAbove tx.staged q = true) := by
  rcases h.node q with hnode | ⟨hnone, -, habove, -⟩
  · rcases foldl_shelve moved q with ⟨content, hfile⟩ | ⟨-, hkept⟩
    · rw [hnode, hfile] at hdir
      cases hdir
    · rw [hkept] at hnode
      exact .inl (hnode.symm.trans hdir)
  · exact .inr ⟨hnone, habove⟩

/-- No temporary file is left. -/
theorem scratch_free (h : tx.Damaged store after moved) (hfresh : Fresh scratch tx.staged store)
    {blob : String × Bytes} (hblob : blob ∈ tx.staged) :
    after.files.node? (scratchPlace scratch blob.1) = none := by
  have hname : (scratch blob.1).name ∈ scratchPlace scratch blob.1 := by
    unfold scratchPlace
    simp
  rcases h.node (scratchPlace scratch blob.1) with hnode | ⟨-, -, habove, -⟩
  · rcases foldl_shelve moved (scratchPlace scratch blob.1) with ⟨content, hfile⟩ | ⟨-, hkept⟩
    · -- then a blob would lie there
      refine absurd (hfile none) ?_
      rw [foldl_shelve_of_ne fun other hother heq => ?_]
      · exact nofun
      · rw [← heq] at hname
        exact hfresh.notMem_place hblob (h.part.mem hother) hname
    · rw [hnode, hkept, hfresh.free blob hblob]
  · obtain ⟨other, hother, hprefix⟩ := List.any_eq_true.1 habove
    have hmem := (of_decide_eq_true hprefix).mem hname
    exact absurd ((List.dropLast_prefix _).mem hmem) (hfresh.notMem_place hblob hother)

end Damaged

/-- What a refused commit damages. The index is as before and no temporary
file is left. The files are those before, after writing some of the blobs
that were to be set, those that come first, to their places; none, if not
all could be staged. So files at other places are as before, and none is
lost; nor is a directory, and those that are new lie above the blobs where
nothing was. Where no disk fails, this is what a commit leaves that is
refused. -/
theorem damage_of_refused (hunderway : Underway tx) (hfresh : Fresh scratch tx.staged store)
    (h : tx.attempt scratch store = (after, left, .error e)) :
    after.root = store.root ∧ after.index = store.index
      ∧ (∃ moved, moved <+: tx.staged ∧ moved ≠ tx.staged
        ∧ ((stageScratch scratch store [] tx.staged).2.2 ≠ .ok () → moved = [])
        ∧ (∀ q, after.files.file? q = moved.foldl (overwrite q) (store.files.file? q))
        ∧ ∀ q, (∀ blob ∈ moved, Store.place blob.1 ≠ q) →
            after.files.file? q = store.files.file? q)
      ∧ (∀ q, (store.files.file? q).isSome = true → (after.files.file? q).isSome = true)
      ∧ (∀ q, store.files.node? q = some .dir → after.files.node? q = some .dir)
      ∧ (∀ q, after.files.node? q = some .dir → store.files.node? q = some .dir
          ∨ (store.files.node? q = none
            ∧ ∃ blob ∈ tx.staged, q <+: (Store.place blob.1).dropLast))
      ∧ (∀ blob ∈ tx.staged, after.files.node? (scratchPlace scratch blob.1) = none)
      ∧ (Faultless scratch tx.staged → tx.commit store = (after, tx, .error e)) := by
  obtain ⟨view, hview⟩ := hunderway.live
  have hpends := hunderway.pends
  rcases attempt_cases hview hpends hfresh with
    ⟨-, hattempt⟩ | ⟨hchanges, after', left', e', hstopped, hattempt⟩ | ⟨-, after', -, hattempt⟩
  · rw [hattempt] at h
    cases h
  · rw [hattempt] at h
    cases h
    obtain ⟨moved, hdamaged, hnone⟩ := hstopped.damaged hpends
    refine ⟨by rw [hdamaged.frame], by rw [hdamaged.frame],
      ⟨moved, hdamaged.part, hdamaged.proper, hnone, hdamaged.file?, fun q hne => ?_⟩,
      fun q hfile => ?_, hdamaged.dirs, fun q hdir => ?_,
      fun blob hblob => hdamaged.scratch_free hfresh hblob, fun hfaultless => ?_⟩
    · rw [hdamaged.file?, foldl_overwrite_of_ne hne]
    · rw [hdamaged.file?]
      exact isSome_foldl_overwrite moved q hfile
    · refine (hdamaged.dir hdir).imp id fun hmade => ?_
      obtain ⟨blob, hblob, hprefix⟩ := List.any_eq_true.1 hmade.2
      exact ⟨hmade.1, blob, hblob, of_decide_eq_true hprefix⟩
    · exact (hstopped.refused hfaultless).commit hchanges hview
  · rw [hattempt] at h
    cases h

/-- A disk with a directory, and nothing committed. -/
def withDir : Store where
  root := "depot"
  files := ⟨Std.ExtTreeMap.insert ∅ ["b"] .dir⟩

/-- Two blobs, one of which is to replace the directory. -/
def ontoDir : Transaction where
  writable := true
  serial := 0
  view := some withDir.index
  blobs := (Std.ExtTreeMap.insert ∅ "a/x" (some [2])).insert "b" (some [2])

/-- Names for their temporary files. -/
def twoNames : Scratches := fun relpath =>
  { name := if relpath = "b" then ".tmp1XkQz0" else ".tmpa7Rw2c" }

theorem underway_ontoDir : Underway ontoDir :=
  have hfirst := @Underway.edit _ _ (.setBlob "a/x" [2]) (@Underway.start withDir true _ rfl) rfl
  @Underway.edit _ _ (.setBlob "b" [2]) hfirst rfl

theorem fresh_ontoDir : Fresh twoNames ontoDir.staged withDir :=
  ⟨by decide +kernel, by decide +kernel, by decide +kernel⟩

set_option maxRecDepth 20000 in
/-- The first of the two blobs is moved, and the second is refused. -/
theorem damage_of_refused_at_second : ∃ after,
    Underway ontoDir ∧ Fresh twoNames ontoDir.staged withDir
    ∧ ontoDir.attempt twoNames withDir
      = (after, ontoDir.written, .error (.io "depot/+files/b" .isDirectory))
    ∧ after.index = withDir.index
    ∧ withDir.files.file? ["a", "x"] = none ∧ after.files.file? ["a", "x"] = some [2] := by
  have hattempt : ontoDir.attempt twoNames withDir
      = ((ontoDir.attempt twoNames withDir).1, ontoDir.written,
        .error (.io "depot/+files/b" .isDirectory)) := by
    with_unfolding_all rfl
  obtain ⟨-, hindex, -⟩ := damage_of_refused underway_ontoDir fresh_ontoDir hattempt
  exact ⟨_, underway_ontoDir, fresh_ontoDir, hattempt, hindex, rfl, by with_unfolding_all rfl⟩

end Depot.Transaction
