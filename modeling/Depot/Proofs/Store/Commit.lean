/-
What a commit comes to. There are three ways (`commit_cases`): a
transaction without changes ends and leaves the store alone; a commit
that the operating system refuses leaves the index alone, but not all of
the files; and any other commit makes the index the view of the
transaction with its changes in it.

What that index says is looked up by key (`getElem?_overlay`) and by
relpath (`contains_overlay`).
-/
import Depot.Store.Transaction
import Depot.Proofs.Text.Decimal
import Depot.Proofs.Text.Keys

namespace Depot.Transaction

variable {tx : Transaction} {store : Store} {view : Index}

-- ===================================================== beginning

/-- A transaction begins on what is committed, if nothing fails. -/
theorem start_eq_ok {writable : Bool} {fault : Option IndexFault}
    (h : start store writable fault = .ok tx) :
    fault = none ∧ ∃ serial, store.currentSerial = .ok serial
      ∧ tx = { writable, serial, view := some store.index } := by
  unfold start at h
  cases fault with
  | some cause => cases h
  | none =>
      dsimp only at h
      split at h
      · next serial hserial =>
        cases h
        exact ⟨rfl, serial, hserial, rfl⟩
      · cases h

/-- Else the index fails, or the serial is no number. -/
theorem start_eq_error {writable : Bool} {fault : Option IndexFault} {e : StoreError}
    (h : start store writable fault = .error e) :
    (∃ cause, fault = some cause ∧ e = .index cause)
      ∨ fault = none ∧ ∃ text, store.index.serial = some text
        ∧ Text.natural? text.toList = none ∧ e = .corruptSerial text := by
  unfold start at h
  cases fault with
  | some cause =>
      cases h
      exact .inl ⟨cause, rfl, rfl⟩
  | none =>
      refine .inr ⟨rfl, ?_⟩
      unfold Store.currentSerial Index.currentSerial at h
      cases hserial : store.index.serial with
      | none =>
          rw [hserial] at h
          cases h
      | some text =>
          rw [hserial] at h
          dsimp only at h
          cases hnumber : Text.natural? text.toList with
          | some n =>
              rw [hnumber] at h
              cases h
          | none =>
              rw [hnumber] at h
              cases h
              exact ⟨text, rfl, hnumber, rfl⟩

-- ===================================================== pending changes

/-- A change of a record is kept aside by a transaction that may write. -/
theorem change_eq {tx' : Transaction} {key : String} {value : Option Json}
    (h : tx.change key value = .ok tx') :
    tx.writable = true ∧ tx' = { tx with records := tx.records.insert key value } := by
  unfold change at h
  cases hw : tx.writable with
  | true => rw [hw, if_pos rfl] at h; cases h; exact ⟨rfl, rfl⟩
  | false => rw [hw] at h; cases h

/-- So is a change of a blob, at a relpath that names a file. -/
theorem changeBlob_eq {tx' : Transaction} {relpath : String} {content : Option Bytes}
    (h : tx.changeBlob relpath content = .ok tx') :
    tx.writable = true ∧ Relpath.isValid relpath = true
      ∧ tx' = { tx with blobs := tx.blobs.insert relpath content } := by
  unfold changeBlob at h
  cases hw : tx.writable with
  | true =>
      rw [hw] at h
      cases hvalid : Relpath.isValid relpath with
      | true => rw [hvalid] at h; cases h; exact ⟨rfl, rfl, rfl⟩
      | false => rw [hvalid] at h; cases h
  | false => rw [hw] at h; cases h

-- ===================================================== staging and moving

section

variable {α : Type} {act : Store → α → Store × Except StoreError Unit} {after : Store}

theorem inTurn_one (act : Store → α → Store × Except StoreError Unit) (store : Store) (x : α) :
    inTurn act store [x] = act store x := by
  rw [inTurn]
  rcases act store x with ⟨after, e | _⟩
  · rfl
  · rfl

/-- It is done for some and then for others. -/
theorem inTurn_append (store : Store) (front rest : List α) :
    inTurn act store (front ++ rest) =
      match inTurn act store front with
      | (after, .ok ()) => inTurn act after rest
      | (after, .error e) => (after, .error e) := by
  induction front generalizing store with
  | nil => rfl
  | cons x front ih =>
      rw [List.cons_append, inTurn, inTurn]
      rcases act store x with ⟨between, e | _⟩
      · rfl
      · exact ih between

/-- What is done for all is done for the first and then for the others. -/
theorem inTurn_ok {x : α} {rest : List α} (h : inTurn act store (x :: rest) = (after, .ok ())) :
    ∃ between, act store x = (between, .ok ()) ∧ inTurn act between rest = (after, .ok ()) := by
  rw [inTurn] at h
  cases hone : act store x with
  | mk between answer =>
      rw [hone] at h
      cases answer with
      | error e => cases h
      | ok _ => exact ⟨between, rfl, h⟩

/-- Where it stops. -/
theorem inTurn_error {xs : List α} {e : StoreError} (h : inTurn act store xs = (after, .error e)) :
    ∃ front x rest between, xs = front ++ x :: rest ∧ inTurn act store front = (between, .ok ())
      ∧ act between x = (after, .error e) := by
  induction xs generalizing store with
  | nil => cases h
  | cons x rest ih =>
      rw [inTurn] at h
      cases hone : act store x with
      | mk between answer =>
          rw [hone] at h
          cases answer with
          | error e' =>
              cases h
              exact ⟨[], x, rest, store, rfl, rfl, hone⟩
          | ok _ =>
              obtain ⟨front, other, rest', last, rfl, hfront, hlast⟩ := ih h
              refine ⟨x :: front, other, rest', last, rfl, ?_, hlast⟩
              rw [inTurn, hone]
              exact hfront

/-- What relates each store to the one that is made of it relates the first
to the last. -/
theorem inTurn_rel {R : Store → Store → Prop} (hrefl : ∀ store, R store store)
    (htrans : ∀ {a b c}, R a b → R b c → R a c) {xs : List α}
    (hone : ∀ x ∈ xs, ∀ store, R store (act store x).1) (store : Store) :
    R store (inTurn act store xs).1 := by
  induction xs generalizing store with
  | nil => exact hrefl store
  | cons x rest ih =>
      have hfirst := hone x (List.mem_cons_self ..) store
      rw [inTurn]
      cases hact : act store x with
      | mk between answer =>
          rw [hact] at hfirst
          cases answer with
          | error e => exact hfirst
          | ok _ =>
              exact htrans hfirst (ih (fun y hy => hone y (List.mem_cons_of_mem _ hy)) between)

end

/-- How staging a blob comes out: the path of its directory is not taken,
the directory is not made, the path of its temporary file is not taken, or
there is room for that. -/
inductive Stages (store : Store) (relpath : String) : Store → Except StoreError Unit → Prop
  | refused {cause : Files.OsError}
      (hdir : Files.refusal? (Path.parent (Path.join store.filesRoot relpath)) = some cause) :
      Stages store relpath store
        (.error (.io (Path.parent (Path.join store.filesRoot relpath)) cause))
  | unmade {files : Files.Tree} {cause : Files.OsError}
      (hdir : Files.refusal? (Path.parent (Path.join store.filesRoot relpath)) = none)
      (hmake : store.files.makeDirs (parentPieces relpath) = (files, .error cause)) :
      Stages store relpath { store with files }
        (.error (.io (Path.parent (Path.join store.filesRoot relpath)) cause))
  | cramped {files : Files.Tree} {dest : Files.Place} {cause : Files.OsError}
      (hdir : Files.refusal? (Path.parent (Path.join store.filesRoot relpath)) = none)
      (hmake : store.files.makeDirs (parentPieces relpath) = (files, .ok dest))
      (hscratch : Files.refusal? (store.scratchPath relpath) = some cause) :
      Stages store relpath { store with files }
        (.error (.io (Path.parent (Path.join store.filesRoot relpath))
          (.onPath (store.scratchPath relpath) cause)))
  | made {files : Files.Tree} {dest : Files.Place}
      (hdir : Files.refusal? (Path.parent (Path.join store.filesRoot relpath)) = none)
      (hmake : store.files.makeDirs (parentPieces relpath) = (files, .ok dest))
      (hscratch : Files.refusal? (store.scratchPath relpath) = none) :
      Stages store relpath { store with files } (.ok ())

/-- Staging comes out in one of these ways. -/
theorem stages (store : Store) (blob : String × Bytes) :
    Stages store blob.1 (stage store blob).1 (stage store blob).2 := by
  unfold stage
  dsimp only
  cases hdir : Files.refusal? (Path.parent (Path.join store.filesRoot blob.1)) with
  | some cause => exact .refused hdir
  | none =>
      dsimp only
      cases hmake : store.files.makeDirs (parentPieces blob.1) with
      | mk files answer =>
          cases answer with
          | error cause => exact .unmade hdir hmake
          | ok dest =>
              dsimp only
              cases hscratch : Files.refusal? (store.scratchPath blob.1) with
              | some cause => exact .cramped hdir hmake hscratch
              | none => exact .made hdir hmake hscratch

theorem stages_of_eq {blob : String × Bytes} {after : Store} {answer : Except StoreError Unit}
    (h : stage store blob = (after, answer)) : Stages store blob.1 after answer := by
  have hstages := stages store blob
  rwa [h] at hstages

/-- Staging one blob changes nothing but files. -/
theorem Stages.frame {relpath : String} {after : Store} {answer : Except StoreError Unit}
    (h : Stages store relpath after answer) : after = { store with files := after.files } := by
  cases h <;> rfl

/-- Moving a blob comes out as it does below the files directory, if its path
is taken. -/
theorem move_cases (store : Store) (blob : String × Bytes) :
    (∃ files, Files.reach (Path.join store.filesRoot blob.1)
          (store.files.moveInto (Store.pieces blob.1) blob.2) = .ok files
        ∧ move store blob = ({ store with files }, .ok ()))
      ∨ ∃ cause, Files.reach (Path.join store.filesRoot blob.1)
          (store.files.moveInto (Store.pieces blob.1) blob.2) = .error cause
        ∧ move store blob
          = (store, .error (.io (Path.join store.filesRoot blob.1) cause)) := by
  unfold move
  dsimp only
  cases Files.reach (Path.join store.filesRoot blob.1)
      (store.files.moveInto (Store.pieces blob.1) blob.2) with
  | ok files => exact .inl ⟨files, rfl, rfl⟩
  | error cause => exact .inr ⟨cause, rfl, rfl⟩

theorem move_eq_ok {blob : String × Bytes} {after : Store}
    (h : move store blob = (after, .ok ())) :
    ∃ files, Files.reach (Path.join store.filesRoot blob.1)
        (store.files.moveInto (Store.pieces blob.1) blob.2) = .ok files
      ∧ after = { store with files } := by
  rcases move_cases store blob with ⟨files, hreach, hmove⟩ | ⟨cause, -, hmove⟩
  · rw [hmove] at h
    cases h
    exact ⟨files, hreach, rfl⟩
  · rw [hmove] at h
    cases h

/-- A blob that is refused is not moved. -/
theorem move_eq_error {blob : String × Bytes} {after : Store} {e : StoreError}
    (h : move store blob = (after, .error e)) :
    after = store ∧ ∃ cause, e = .io (Path.join store.filesRoot blob.1) cause := by
  rcases move_cases store blob with ⟨files, -, hmove⟩ | ⟨cause, -, hmove⟩
  · rw [hmove] at h
    cases h
  · rw [hmove] at h
    cases h
    exact ⟨rfl, cause, rfl⟩

/-- So moving one changes nothing but files. -/
theorem move_frame (store : Store) (blob : String × Bytes) :
    (move store blob).1 = { store with files := (move store blob).1.files } := by
  rcases move_cases store blob with ⟨files, -, hmove⟩ | ⟨cause, -, hmove⟩ <;> rw [hmove]

/-- What changes nothing but files for one does so for all. -/
theorem inTurn_frame {α : Type} {act : Store → α → Store × Except StoreError Unit}
    (hone : ∀ store x, (act store x).1 = { store with files := (act store x).1.files })
    {xs : List α} {after : Store} {answer : Except StoreError Unit}
    (h : inTurn act store xs = (after, answer)) : after = { store with files := after.files } := by
  have hall := inTurn_rel (R := fun a b => b = { a with files := b.files }) (fun _ => rfl)
    (fun {a b c} hab hbc => by rw [hbc, hab]) (fun x (_ : x ∈ xs) store => hone store x) store
  rwa [h] at hall

theorem stageAll_eq {blobs : List (String × Bytes)} {after : Store}
    {answer : Except StoreError Unit} (h : stageAll store blobs = (after, answer)) :
    after = { store with files := after.files } :=
  inTurn_frame (fun store blob => (stages store blob).frame) h

theorem moveAll_eq {blobs : List (String × Bytes)} {after : Store}
    {answer : Except StoreError Unit} (h : moveAll store blobs = (after, answer)) :
    after = { store with files := after.files } :=
  inTurn_frame move_frame h

/-- Sweeping for nothing leaves the store alone. -/
theorem sweep_nil : sweep store [] = store := rfl

-- ===================================================== commit

/-- The operating system refuses the changes: a file cannot be staged, or
all are and one cannot be moved. -/
def Refused (tx : Transaction) (store after : Store) (e : StoreError) : Prop :=
  stageAll store tx.staged = (after, .error e)
    ∨ ∃ ready, stageAll store tx.staged = (ready, .ok ())
      ∧ moveAll ready tx.staged = (after, .error e)

/-- All files are put in their places. -/
def Placed (tx : Transaction) (store after : Store) : Prop :=
  ∃ ready, stageAll store tx.staged = (ready, .ok ()) ∧ moveAll ready tx.staged = (after, .ok ())

theorem Refused.frame {after : Store} {e : StoreError} (h : tx.Refused store after e) :
    after = { store with files := after.files } := by
  rcases h with h | ⟨ready, hstage, hmove⟩
  · exact stageAll_eq h
  · rw [moveAll_eq hmove, stageAll_eq hstage]

theorem Placed.frame {after : Store} (h : tx.Placed store after) :
    after = { store with files := after.files } := by
  obtain ⟨ready, hstage, hmove⟩ := h
  rw [moveAll_eq hmove, stageAll_eq hstage]

theorem blobs_eq_empty (h : tx.hasChanges = false) : tx.blobs = ∅ := by
  unfold hasChanges at h
  simp only [Bool.not_eq_false', Bool.and_eq_true] at h
  exact Std.ExtTreeMap.isEmpty_iff.1 h.2

theorem removals_eq_nil (h : tx.hasChanges = false) : tx.removals = [] := by
  unfold removals
  rw [blobs_eq_empty h]
  rfl

theorem staged_eq_nil (h : tx.hasChanges = false) : tx.staged = [] := by
  unfold staged
  rw [blobs_eq_empty h]
  rfl

/-- A transaction that has not ended reads its view. -/
theorem observed_eq (hview : tx.view = some view) (store : Store) : tx.observed store = view := by
  unfold observed
  rw [hview]
  rfl

/-- How a transaction that has not ended publishes. -/
theorem publish_cases (hview : tx.view = some view) (store : Store) :
    (tx.hasChanges = false ∧ tx.publish store = (store, .ok tx.serial))
    ∨ (tx.hasChanges = true ∧ ∃ after e, tx.Refused store after e
        ∧ tx.publish store = (after, .error e))
    ∨ (tx.hasChanges = true ∧ ∃ after, tx.Placed store after
        ∧ tx.publish store = ({ after with index := tx.overlay view }, .ok (tx.serial + 1))) := by
  unfold publish
  rw [hview]
  cases hchanges : tx.hasChanges with
  | false => exact .inl ⟨rfl, rfl⟩
  | true =>
      apply Or.inr
      simp only [Bool.not_true, Bool.false_eq_true, ↓reduceIte, Option.isSome_some]
      cases hstage : stageAll store tx.staged with
      | mk ready result =>
          cases result with
          | error e => exact .inl ⟨trivial, ready, e, .inl hstage, rfl⟩
          | ok _ =>
              dsimp only
              cases hmove : moveAll ready tx.staged with
              | mk after result =>
                  cases result with
                  | error e => exact .inl ⟨trivial, after, e, .inr ⟨ready, hstage, hmove⟩, rfl⟩
                  | ok _ =>
                      refine .inr ⟨trivial, after, ⟨ready, hstage, hmove⟩, ?_⟩
                      rw [observed_eq hview]

/-- How it commits. -/
theorem commit_cases (hview : tx.view = some view) (store : Store) :
    (tx.hasChanges = false ∧ tx.commit store = (store, tx.ended tx.serial, .ok tx.serial))
    ∨ (tx.hasChanges = true ∧ ∃ after e, tx.Refused store after e
        ∧ tx.commit store = (after, tx, .error e))
    ∨ (tx.hasChanges = true ∧ ∃ after, tx.Placed store after
        ∧ tx.commit store = (sweep { after with index := tx.overlay view } tx.removals,
            tx.ended (tx.serial + 1), .ok (tx.serial + 1))) := by
  unfold commit
  rcases publish_cases hview store with
    ⟨hchanges, hpublish⟩ | ⟨hchanges, after, e, hrefused, hpublish⟩
    | ⟨hchanges, after, hplaced, hpublish⟩
  · refine .inl ⟨hchanges, ?_⟩
    rw [hpublish]
    dsimp only
    rw [removals_eq_nil hchanges, sweep_nil]
  · refine .inr (.inl ⟨hchanges, after, e, hrefused, ?_⟩)
    rw [hpublish]
  · refine .inr (.inr ⟨hchanges, after, hplaced, ?_⟩)
    rw [hpublish]

-- ===================================================== the new index

/-- In a list in which no two are of one key, what comes first is not
found again. -/
theorem lookup_tail {α : Type} {key : String} {a : α} {rest : List (String × α)}
    (h : ((key, a) :: rest).Pairwise fun a b => a.1 ≠ b.1) : rest.lookup key = none := by
  apply List.lookup_eq_none_iff.2
  intro m hm
  simpa using (List.pairwise_cons.1 h).1 m hm

/-- Writing changes, of which no two are of one key. -/
theorem getElem?_foldl_change {changes : List (String × Option Json)}
    (h : changes.Pairwise fun a b => a.1 ≠ b.1) (records : Std.ExtTreeMap String String)
    (key : String) :
    (changes.foldl (fun records change => match change.2 with
      | some v => records.insert change.1 v.compact
      | none => records.erase change.1) records)[key]?
      = match changes.lookup key with
        | some value => value.map Json.compact
        | none => records[key]? := by
  induction changes generalizing records with
  | nil => rfl
  | cons change changes ih =>
      obtain ⟨k, value⟩ := change
      rw [List.foldl_cons, ih (List.pairwise_cons.1 h).2, List.lookup_cons]
      by_cases hk : key = k
      · subst hk
        rw [lookup_tail h, beq_self_eq_true]
        cases value with
        | some v => simp
        | none => simp
      · have hk' : (key == k) = false := by simpa using hk
        rw [hk']
        cases changes.lookup key with
        | some value => rfl
        | none => cases value with
          | some v => simp [Std.ExtTreeMap.getElem?_insert, Ne.symm hk]
          | none => simp [Std.ExtTreeMap.getElem?_erase, Ne.symm hk]

/-- Entering in a set what changes set and taking out what they delete, of
which no two are of one text. -/
theorem contains_foldl_change {α : Type} {changes : List (String × Option α)}
    (h : changes.Pairwise fun a b => a.1 ≠ b.1) (found : Std.ExtTreeSet String) (text : String) :
    (changes.foldl (fun found change =>
        if change.2.isSome then found.insert change.1 else found.erase change.1)
      found).contains text
      = match changes.lookup text with
        | some value => value.isSome
        | none => found.contains text := by
  induction changes generalizing found with
  | nil => rfl
  | cons change changes ih =>
      obtain ⟨r, value⟩ := change
      rw [List.foldl_cons, ih (List.pairwise_cons.1 h).2, List.lookup_cons]
      by_cases hr : text = r
      · subst hr
        rw [lookup_tail h, beq_self_eq_true]
        cases value with
        | some v => simp
        | none => simp
      · have hr' : (text == r) = false := by simpa using hr
        rw [hr']
        cases changes.lookup text with
        | some value => rfl
        | none => cases value with
          | some v => simp [Std.ExtTreeSet.contains_insert, Ne.symm hr]
          | none => simp [Std.ExtTreeSet.contains_erase, Ne.symm hr]

/-- A record of the new index is the one that the transaction set, if it
changed the key. -/
theorem getElem?_overlay (tx : Transaction) (index : Index) (key : String) :
    (tx.overlay index).records[key]?
      = match tx.records[key]? with
        | some value => value.map Json.compact
        | none => index.records[key]? := by
  unfold overlay
  dsimp only
  rw [Std.ExtTreeMap.foldl_eq_foldl_toList, ← lookup_toList tx.records]
  exact getElem?_foldl_change (distinct_toList _) _ _

/-- A relpath is in the new index if the transaction set its blob, or did
not change it and it was there. -/
theorem contains_overlay (tx : Transaction) (index : Index) (relpath : String) :
    (tx.overlay index).blobs.contains relpath
      = match tx.blobs[relpath]? with
        | some content => content.isSome
        | none => index.blobs.contains relpath := by
  unfold overlay
  dsimp only
  rw [Std.ExtTreeMap.foldl_eq_foldl_toList, ← lookup_toList tx.blobs]
  rw [contains_foldl_change (distinct_toList tx.blobs) index.blobs relpath]
  cases tx.blobs.toList.lookup relpath <;> rfl

/-- Numbers of 64 bits are read back. -/
theorem natural?_serial (n : UInt64) : Text.natural? (toString n).toList = some n.toNat := by
  refine Text.natural?_toString ?_
  have := n.toNat_lt
  unfold Text.maxNatural
  omega

/-- Serials of one text are one. -/
theorem serial_inj {m n : UInt64} (h : some (toString m) = some (toString n)) : m = n := by
  have hread := natural?_serial m
  rw [Option.some.inj h, natural?_serial] at hread
  exact (UInt64.toNat_inj.1 (Option.some.inj hread)).symm

end Depot.Transaction
