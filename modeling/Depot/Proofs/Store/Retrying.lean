/-
Commits that are tried again. An attempt that is refused leaves in the
view of the transaction what it wrote to the index, but only at the keys
and relpaths that the transaction changes (`Agrees`). There the pending
changes hide it, and the next attempt writes all of them again. So what
the holder reads and what a later commit leaves in the index is what they
would be if the attempt had not been made (`retried_alike`).
-/
import Depot.Proofs.Store.Damage
import Depot.Proofs.Store.Listing
import Depot.Proofs.Store.Room

namespace Depot.Transaction

open Files Files.Tree

variable {scratch : Scratches} {tx tx' left : Transaction} {store after : Store} {view : Index}
  {e : StoreError}

-- ===================================================== views that agree

/-- Two views of the index that differ only where a transaction has
changes. -/
structure Alike (tx : Transaction) (view view' : Index) : Prop where
  record : ∀ key : String, tx.records[key]? = none → view'.records[key]? = view.records[key]?
  blob : ∀ relpath : String, tx.blobs[relpath]? = none →
    view'.blobs.contains relpath = view.blobs.contains relpath
  serial : view'.serial.isSome = view.serial.isSome

/-- A transaction with the same changes as another, and a view that differs
only where these are. -/
structure Agrees (tx left : Transaction) : Prop where
  writable : left.writable = tx.writable
  serial : left.serial = tx.serial
  records : left.records = tx.records
  blobs : left.blobs = tx.blobs
  view : ∃ view view', tx.view = some view ∧ left.view = some view' ∧ Alike tx view view'

theorem agrees_self (hview : tx.view = some view) : Agrees tx tx :=
  ⟨rfl, rfl, rfl, rfl, view, view, hview, hview, fun _ _ => rfl, fun _ _ => rfl, rfl⟩

/-- Writing the changes to a view changes it only where they are. -/
theorem alike_overlay (tx : Transaction) (view : Index) : Alike tx view (tx.overlay view) where
  record key hpending := by rw [getElem?_overlay, hpending]
  blob relpath hpending := by rw [contains_overlay, hpending]
  serial := by
    unfold overlay
    exact Option.isSome_map

/-- So the transaction agrees with what it was. -/
theorem agrees_written (hview : tx.view = some view) : Agrees tx tx.written := by
  refine ⟨rfl, rfl, rfl, rfl, view, tx.overlay view, hview, ?_, alike_overlay tx view⟩
  unfold written
  rw [hview]
  rfl

/-- More changes hide more. -/
theorem Alike.mono {view view' : Index} (h : Alike tx view view')
    (hrecords : ∀ key : String, tx'.records[key]? = none → tx.records[key]? = none)
    (hblobs : ∀ relpath : String, tx'.blobs[relpath]? = none → tx.blobs[relpath]? = none) :
    Alike tx' view view' where
  record key hpending := h.record key (hrecords key hpending)
  blob relpath hpending := h.blob relpath (hblobs relpath hpending)
  serial := h.serial

/-- Written to views that are alike, the changes make one index. -/
theorem Alike.overlay {view view' : Index} (h : Alike tx view view') :
    tx.overlay view' = tx.overlay view := by
  have hrecords : (tx.overlay view').records = (tx.overlay view).records := by
    apply Std.ExtTreeMap.ext_getElem?
    intro key
    rw [getElem?_overlay, getElem?_overlay]
    cases hpending : tx.records[key]? with
    | some value => rfl
    | none => exact h.record key hpending
  have hblobs : (tx.overlay view').blobs = (tx.overlay view).blobs := by
    apply Std.ExtTreeSet.ext_contains
    intro relpath
    rw [contains_overlay, contains_overlay]
    cases hpending : tx.blobs[relpath]? with
    | some content => rfl
    | none => exact h.blob relpath hpending
  have hserial : (tx.overlay view').serial = (tx.overlay view).serial := by
    have hsome := h.serial
    unfold Transaction.overlay
    dsimp only
    cases hs : view.serial with
    | none => cases hs' : view'.serial with
      | none => rfl
      | some text =>
          rw [hs, hs'] at hsome
          cases hsome
    | some text => cases hs' : view'.serial with
      | none =>
          rw [hs, hs'] at hsome
          cases hsome
      | some text' => rfl
  calc tx.overlay view'
      = ⟨(tx.overlay view').records, (tx.overlay view').blobs, (tx.overlay view').serial⟩ := rfl
    _ = tx.overlay view := by rw [hrecords, hblobs, hserial]

namespace Agrees

theorem overlay (h : Agrees tx left) (view : Index) : left.overlay view = tx.overlay view := by
  unfold Transaction.overlay
  rw [h.records, h.blobs, h.serial]

theorem hasChanges (h : Agrees tx left) : left.hasChanges = tx.hasChanges := by
  unfold Transaction.hasChanges
  rw [h.records, h.blobs]

theorem staged (h : Agrees tx left) : left.staged = tx.staged := by
  unfold Transaction.staged
  rw [h.blobs]

theorem removals (h : Agrees tx left) : left.removals = tx.removals := by
  unfold Transaction.removals
  rw [h.blobs]

theorem ended (h : Agrees tx left) (serial : UInt64) : left.ended serial = tx.ended serial := by
  unfold Transaction.ended
  rw [h.writable]

-- ===================================================== what is read

/-- Transactions that agree find the same records, in whatever stores. -/
theorem get (h : Agrees tx left) (now later : Store) (key : String) :
    left.get now key = tx.get later key := by
  obtain ⟨view, view', hview, hview', halike⟩ := h.view
  unfold Transaction.get
  rw [h.records, observed_eq hview, observed_eq hview']
  cases hpending : tx.records[key]? with
  | some value => rfl
  | none =>
      dsimp only
      rw [halike.record key hpending]

theorem hasRecord (h : Agrees tx left) (now later : Store) (key : String) :
    left.hasRecord now key = tx.hasRecord later key := by
  unfold Transaction.hasRecord
  rw [h.get now later]

theorem keys (h : Agrees tx left) (now later : Store) (lead : String) :
    left.keys now lead = tx.keys later lead := by
  obtain ⟨view, view', hview, hview', halike⟩ := h.view
  refine eq_of_sorted (keys_ordered left now lead) (keys_ordered tx later lead) fun key => ?_
  rw [mem_keys, mem_keys, h.records, observed_eq hview, observed_eq hview']
  cases hpending : tx.records[key]? with
  | some value => rfl
  | none =>
      dsimp only
      rw [← Std.ExtTreeMap.isSome_getElem?_eq_contains,
        ← Std.ExtTreeMap.isSome_getElem?_eq_contains, halike.record key hpending]

-- ===================================================== further changes

/-- A change is made to both or refused to both, and then they agree. -/
theorem edit (h : Agrees tx left) (edit : Edit) :
    (∃ e, tx.edit edit = .error e ∧ left.edit edit = .error e)
      ∨ ∃ tx' left', tx.edit edit = .ok tx' ∧ left.edit edit = .ok left' ∧ Agrees tx' left' := by
  have hrecord : ∀ key value,
      (∃ e, tx.change key value = .error e ∧ left.change key value = .error e)
        ∨ ∃ tx' left', tx.change key value = .ok tx' ∧ left.change key value = .ok left'
          ∧ Agrees tx' left' := by
    intro key value
    obtain ⟨view, view', hview, hview', halike⟩ := h.view
    unfold change
    rw [h.writable]
    cases hwrites : tx.writable with
    | false => exact .inl ⟨_, rfl, rfl⟩
    | true =>
        refine .inr ⟨_, _, rfl, rfl, rfl, h.serial, ?_, h.blobs, view, view', hview, hview',
          halike.mono (fun k hk => ?_) fun _ => id⟩
        · rw [h.records]
        · rw [Std.ExtTreeMap.getElem?_insert] at hk
          split at hk
          · cases hk
          · exact hk
  have hblob : ∀ relpath content,
      (∃ e, tx.changeBlob relpath content = .error e ∧ left.changeBlob relpath content = .error e)
        ∨ ∃ tx' left', tx.changeBlob relpath content = .ok tx'
          ∧ left.changeBlob relpath content = .ok left' ∧ Agrees tx' left' := by
    intro relpath content
    obtain ⟨view, view', hview, hview', halike⟩ := h.view
    unfold changeBlob
    rw [h.writable]
    cases hwrites : tx.writable with
    | false => exact .inl ⟨_, rfl, rfl⟩
    | true =>
        cases hvalid : Relpath.isValid relpath with
        | false => exact .inl ⟨_, rfl, rfl⟩
        | true =>
            refine .inr ⟨_, _, rfl, rfl, rfl, h.serial, h.records, ?_, view, view', hview, hview',
              halike.mono (fun _ => id) fun r hr => ?_⟩
            · rw [h.blobs]
            · rw [Std.ExtTreeMap.getElem?_insert] at hr
              split at hr
              · cases hr
              · exact hr
  cases edit with
  | set key value => exact hrecord key (some value)
  | delete key => exact hrecord key none
  | setBlob relpath content => exact hblob relpath (some content)
  | deleteBlob relpath => exact hblob relpath none

end Agrees

/-- Makes changes one after the other, and passes over those that are
refused. -/
def editAll (tx : Transaction) : List Edit → Transaction
  | [] => tx
  | edit :: rest =>
      match tx.edit edit with
      | .ok tx => editAll tx rest
      | .error _ => editAll tx rest

theorem Agrees.editAll (h : Agrees tx left) (edits : List Edit) :
    Agrees (tx.editAll edits) (left.editAll edits) := by
  induction edits generalizing tx left with
  | nil => exact h
  | cons edit rest ih =>
      unfold Transaction.editAll
      rcases h.edit edit with ⟨e, hedit, hedit'⟩ | ⟨tx', left', hedit, hedit', hagrees⟩
      · rw [hedit, hedit']
        exact ih h
      · rw [hedit, hedit']
        exact ih hagrees

-- ===================================================== trying again

/-- Tries to commit and go on as a new transaction that writes. -/
def attemptRestart (scratch : Scratches) (tx : Transaction) (store : Store)
    (fault : Option IndexFault := none) : Store × Transaction × Except StoreError UInt64 :=
  if tx.writable then
    match tx.attempt scratch store with
    | (store, tx, .error e) => (store, tx, .error e)
    | (store, tx, .ok _) => (store, tx.startOver store true fault)
  else (store, tx.rollback.startOver store true fault)

/-- To start over is refused for the index or for its serial only, and leaves
what had ended. -/
theorem startOver_error {writable : Bool} {fault : Option IndexFault}
    (h : tx.startOver store writable fault = (left, .error e)) :
    left = tx ∧ ((∃ cause, fault = some cause ∧ e = .index cause)
      ∨ fault = none ∧ ∃ text, store.index.serial = some text
        ∧ Text.natural? text.toList = none ∧ e = .corruptSerial text) := by
  unfold startOver at h
  split at h
  · cases h
  · next e' hstart =>
    cases h
    exact ⟨rfl, start_eq_error hstart⟩

/-- A restart that the operating system refuses is an attempt that it
refuses. -/
theorem attempt_of_restart {path : String} {cause : OsError} {fault : Option IndexFault}
    (h : tx.attemptRestart scratch store fault = (after, left, .error (.io path cause))) :
    tx.writable = true ∧ tx.attempt scratch store = (after, left, .error (.io path cause)) := by
  have hstart : ∀ (tx : Transaction) (store : Store),
      (store, tx.startOver store true fault) ≠ (after, left, .error (.io path cause)) := by
    intro tx store heq
    obtain ⟨-, ⟨cause, -, hcause⟩ | ⟨-, text, -, -, htext⟩⟩ :=
      startOver_error (Prod.mk.inj heq).2
    · cases hcause
    · cases htext
  unfold attemptRestart at h
  split at h
  · next hwrites =>
    split at h
    · next hattempt =>
      cases h
      exact ⟨hwrites, hattempt⟩
    · exact absurd h (hstart _ _)
  · exact absurd h (hstart _ _)

/-- Where there is room beside what a refused attempt has left, there is
room without it. -/
theorem Damaged.room {moved : List (String × Bytes)} (h : tx.Damaged store after moved)
    {relpath : String} (hroom : Room after relpath) : Room store relpath where
  taken := by
    have htaken := hroom.taken
    rw [h.frame] at htaken
    exact htaken
  scratch := by
    have hscratch := hroom.scratch
    rw [h.frame] at hscratch
    exact hscratch
  passes := by
    intro q hq content hfile
    -- a file that was there still is one
    rcases h.node q with hnode | ⟨hnone, -⟩
    · rcases foldl_shelve moved q with ⟨content', hput⟩ | ⟨-, hkept⟩
      · exact hroom.passes q hq content' (hnode.trans (hput _))
      · exact hroom.passes q hq content (hnode.trans ((hkept _).trans hfile))
    · rw [hnone] at hfile
      cases hfile
  free hdir := hroom.free (h.dirs _ hdir)

/-- So what is put in its places there could be put there without it. -/
theorem Damaged.placed {moved : List (String × Bytes)} (h : tx.Damaged store after moved)
    (hclosed : store.files.Closed) (hpends : tx'.Pends) {done : Store}
    (hplaced : tx'.Placed after done) : ∃ done, tx'.Placed store done := by
  rw [placed_iff hpends hclosed]
  intro blob hblob
  obtain ⟨hadmits, habove⟩ := (placed_iff hpends (h.closed hclosed)).1 ⟨done, hplaced⟩ blob hblob
  exact ⟨⟨h.room hadmits.toRoom, hadmits.file, hadmits.short⟩, habove⟩

theorem Underway.editAll (h : Underway tx) (edits : List Edit) : Underway (tx.editAll edits) := by
  induction edits generalizing tx with
  | nil => exact h
  | cons edit rest ih =>
      unfold Transaction.editAll
      cases hedit : tx.edit edit with
      | ok tx' => exact ih (h.edit hedit)
      | error e => exact ih h

/-- A commit that succeeds where an attempt was refused before leaves the
index that it leaves where none was made. -/
theorem Agrees.commit {moved : List (String × Bytes)} (h : Agrees tx left)
    (hpends : tx.Pends) (hclosed : store.files.Closed) (hdamaged : tx'.Damaged store after moved)
    (hfresh : Fresh scratch left.staged after) {final : Store} {done : Transaction} {n : UInt64}
    (hattempt : left.attempt scratch after = (final, done, .ok n)) :
    ∃ final', tx.commit store = (final', done, .ok n) ∧ final'.index = final.index := by
  obtain ⟨view, view', hview, hview', halike⟩ := h.view
  have hpends' : left.Pends := by
    unfold Pends
    rw [h.blobs]
    exact hpends
  rcases attempt_cases hview' hpends' hfresh with
    ⟨hchanges, hidle⟩ | ⟨-, _, _, _, -, hrefused⟩ | ⟨hchanges, ready, hplaced, hdone⟩
  · rw [hattempt] at hidle
    cases hidle
    refine ⟨store, ?_, by rw [hdamaged.frame]⟩
    rw [commit_idle hview (h.hasChanges.symm.trans hchanges), h.ended, h.serial]
  · rw [hattempt] at hrefused
    cases hrefused
  · rw [hattempt] at hdone
    cases hdone
    have hplaced' : tx.Placed after ready := by
      unfold Placed at hplaced ⊢
      rwa [h.staged] at hplaced
    obtain ⟨ready', hready'⟩ := hdamaged.placed hclosed hpends hplaced'
    have hcommit := hready'.commit (h.hasChanges.symm.trans hchanges) hview
    rw [← h.ended, ← h.serial] at hcommit
    refine ⟨_, hcommit, ?_⟩
    show tx.overlay view = left.overlay view'
    rw [h.overlay, halike.overlay]

/-- A restart that the operating system refuses can be tried again. The
holder reads the records as if it had not been tried, after any further
changes, each of which is taken or refused as it would have been. If it
gives up, the index is as it was; if it commits and succeeds, so would it
have without the restart, and with the same index. Where no disk fails,
this is the restart that leaves the transaction as it was. -/
theorem retried_alike (hunderway : Underway tx) (hclosed : store.files.Closed)
    (hfresh : Fresh scratch tx.staged store) {path : String} {cause : OsError}
    {fault : Option IndexFault}
    (h : tx.attemptRestart scratch store fault = (after, left, .error (.io path cause))) :
    (∀ edits,
      (∀ now later : Store, (left.editAll edits).get now = (tx.editAll edits).get later
        ∧ (left.editAll edits).hasRecord now = (tx.editAll edits).hasRecord later
        ∧ (left.editAll edits).keys now = (tx.editAll edits).keys later)
      ∧ (∀ edit, ((left.editAll edits).edit edit).map (fun _ => ())
          = ((tx.editAll edits).edit edit).map fun _ => ())
      ∧ ∀ scratch' final done n, Fresh scratch' (left.editAll edits).staged after →
          (left.editAll edits).attempt scratch' after = (final, done, .ok n) →
          ∃ final', (tx.editAll edits).commit store = (final', done, .ok n)
            ∧ final'.index = final.index)
      ∧ after.index = store.index
      ∧ (Faultless scratch tx.staged →
          tx.restartAsWrite store fault = (after, tx, .error (.io path cause))) := by
  obtain ⟨hwrites, hattempt⟩ := attempt_of_restart h
  obtain ⟨view, hview⟩ := hunderway.live
  have hagrees : Agrees tx left := by
    rcases left_of_attempt hattempt with rfl | rfl
    · exact agrees_self hview
    · exact agrees_written hview
  rcases attempt_cases hview hunderway.pends hfresh with
    ⟨-, heq⟩ | ⟨hchanges, _, _, _, hstopped, heq⟩ | ⟨-, _, -, heq⟩
  · rw [hattempt] at heq
    cases heq
  · rw [hattempt] at heq
    cases heq
    obtain ⟨moved, hdamaged, -⟩ := hstopped.damaged hunderway.pends
    refine ⟨fun edits => ⟨fun now later => ⟨?_, ?_, ?_⟩, fun edit => ?_,
      fun scratch' final done n hfresh' hagain => ?_⟩, by rw [hdamaged.frame],
      fun hfaultless => ?_⟩
    · funext key
      exact (hagrees.editAll edits).get now later key
    · funext key
      exact (hagrees.editAll edits).hasRecord now later key
    · funext lead
      exact (hagrees.editAll edits).keys now later lead
    · rcases (hagrees.editAll edits).edit edit with
        ⟨e, hedit, hedit'⟩ | ⟨tx', left', hedit, hedit', -⟩
      · rw [hedit, hedit']
      · rw [hedit, hedit']
        rfl
    · exact (hagrees.editAll edits).commit (hunderway.editAll edits).pends hclosed hdamaged hfresh'
        hagain
    · unfold restartAsWrite
      rw [hwrites, if_pos rfl, (hstopped.refused hfaultless).commit hchanges hview]
  · rw [hattempt] at heq
    cases heq

set_option maxRecDepth 20000 in
/-- The blob that was refused is given up, and the commit tried again. -/
theorem retried_alike_without_refused : ∃ after final final',
    Underway ontoDir ∧ Fresh twoNames ontoDir.staged withDir
    ∧ ontoDir.attemptRestart twoNames withDir
      = (after, ontoDir.written, .error (.io "depot/+files/b" .isDirectory))
    ∧ (ontoDir.written.editAll [.deleteBlob "b"]).attempt twoNames after
      = (final, ontoDir.ended 1, .ok 1)
    ∧ (ontoDir.editAll [.deleteBlob "b"]).commit withDir = (final', ontoDir.ended 1, .ok 1)
    ∧ final'.index = final.index := by
  have hrestart : ontoDir.attemptRestart twoNames withDir
      = ((ontoDir.attempt twoNames withDir).1, ontoDir.written,
        .error (.io "depot/+files/b" .isDirectory)) := by
    with_unfolding_all rfl
  have hagain : (ontoDir.written.editAll [.deleteBlob "b"]).attempt twoNames
      (ontoDir.attempt twoNames withDir).1
      = (((ontoDir.written.editAll [.deleteBlob "b"]).attempt twoNames
        (ontoDir.attempt twoNames withDir).1).1, ontoDir.ended 1, .ok 1) := by
    with_unfolding_all rfl
  have hclosed : withDir.files.Closed := closed_empty.insert (node?_nil _) (by decide) .dir
    (by decide)
  obtain ⟨halike, -⟩ := retried_alike underway_ontoDir hclosed fresh_ontoDir hrestart
  obtain ⟨-, -, hcommit⟩ := halike [.deleteBlob "b"]
  obtain ⟨final', hplain, hindex⟩ := hcommit twoNames _ _ _
    ⟨by decide +kernel, by decide +kernel, by decide +kernel⟩ hagain
  exact ⟨_, _, final', underway_ontoDir, fresh_ontoDir, hrestart, hagain, hplain, hindex⟩

end Depot.Transaction
