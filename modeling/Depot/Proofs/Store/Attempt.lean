/-
Commits as the disk and the index see them. The content of each blob is
first written to a temporary file in its directory, under a name that is
picked for it; then the changes are written to the index, where they stay
unseen by others until the end; then each temporary file is renamed to the
place of its blob; and only then is the index made the current one. Any of
this can fail at any blob. A refused attempt removes the temporary files
that are left, and what it wrote to the index stays in the view of the
transaction.

Where no disk fails, the attempt does what the commit does
(`attempt_eq_commit`); what it does in any case is `attempt_cases`.
-/
import Depot.Proofs.Files.Guests
import Depot.Proofs.Files.Scratch
import Depot.Proofs.Store.Placing

namespace Depot

open Files Files.Tree

namespace Transaction

-- ===================================================== temporary files

/-- What becomes of a temporary file: the name that is picked for it, and
the failure, if there is one, to write or to rename it. -/
structure Scratch where
  name : String
  unwritten : Option StoreError := none
  unmoved : Option StoreError := none

/-- The temporary files of blobs, by relpath. -/
abbrev Scratches := String → Scratch

variable (scratch : Scratches)

/-- Where the temporary file of a blob lies. -/
def scratchPlace (relpath : String) : Place :=
  (Store.place relpath).dropLast ++ [(scratch relpath).name]

-- opened by name only: unfolding the directories of one blob is slow
/-- Makes the directory of a blob and writes its temporary file. -/
@[irreducible] def stageOne (store : Store) (blob : String × Bytes) :
    Store × Except StoreError Unit :=
  match stage store blob with
  | (store, .error e) => (store, .error e)
  | (store, .ok ()) =>
      match (scratch blob.1).unwritten with
      | some e => (store, .error e)
      | none =>
          ({ store with files := store.files.put (scratchPlace scratch blob.1) blob.2 }, .ok ())

/-- Stages blobs one after the other. Those that have temporary files are
told, after those that had before. -/
def stageScratch (store : Store) (held : List (String × Bytes)) :
    List (String × Bytes) → Store × List (String × Bytes) × Except StoreError Unit
  | [] => (store, held, .ok ())
  | blob :: rest =>
      match stageOne scratch store blob with
      | (store, .error e) => (store, held, .error e)
      | (store, .ok ()) => stageScratch store (held ++ [blob]) rest

/-- Renames temporary files to the places of their blobs. Those that are
left are told. -/
def moveScratch (store : Store) :
    List (String × Bytes) → Store × List (String × Bytes) × Except StoreError Unit
  | [] => (store, [], .ok ())
  | blob :: rest =>
      match (scratch blob.1).unmoved with
      | some e => (store, blob :: rest, .error e)
      | none =>
          let path := Path.join store.filesRoot blob.1
          match reach path
              (store.files.rename (scratchPlace scratch blob.1) (Store.pieces blob.1)) with
          | .ok files => moveScratch { store with files } rest
          | .error cause => (store, blob :: rest, .error (.io path cause))

/-- Removes temporary files. -/
def discard (store : Store) (held : List (String × Bytes)) : Store :=
  { store with
    files := held.foldl (fun files blob => ⟨files.nodes.erase (scratchPlace scratch blob.1)⟩)
      store.files }

/-- The transaction once its changes are written to the index that it
alone sees. -/
def written (tx : Transaction) : Transaction :=
  { tx with view := tx.view.map tx.overlay }

/-- Tries to commit. -/
def attempt (tx : Transaction) (store : Store) : Store × Transaction × Except StoreError UInt64 :=
  if !tx.hasChanges then tx.commit store
  else
    match stageScratch scratch store [] tx.staged with
    | (store, held, .error e) => (discard scratch store held, tx, .error e)
    | (store, held, .ok ()) =>
        let index := tx.overlay (tx.observed store)
        let store := if tx.view.isSome then store else { store with index }
        match moveScratch scratch store held with
        | (store, held, .error e) => (discard scratch store held, tx.written, .error e)
        | (store, _, .ok ()) =>
            if tx.view.isSome then
              (sweep { store with index } tx.removals, tx.ended (tx.serial + 1),
                .ok (tx.serial + 1))
            else (store, tx.written, .error (.index .ended))

-- ===================================================== names that are new

/-- The names of temporary files are picked so that no path has them and
no two are at one place, where nothing is. -/
structure Fresh (blobs : List (String × Bytes)) (store : Store) : Prop where
  unused : ∀ blob ∈ blobs, ∀ other ∈ blobs, (scratch blob.1).name ∉ Store.pieces other.1
  distinct : blobs.Pairwise fun a b => scratchPlace scratch a.1 ≠ scratchPlace scratch b.1
  free : ∀ blob ∈ blobs, store.files.node? (scratchPlace scratch blob.1) = none

theorem fresh_iff {blobs : List (String × Bytes)} {store : Store} :
    (∀ blob ∈ blobs, ∀ other ∈ blobs, (scratch blob.1).name ∉ Store.pieces other.1)
      ∧ (blobs.Pairwise fun a b => scratchPlace scratch a.1 ≠ scratchPlace scratch b.1)
      ∧ (∀ blob ∈ blobs, store.files.node? (scratchPlace scratch blob.1) = none)
    ↔ Fresh scratch blobs store := by
  constructor
  · rintro ⟨hunused, hdistinct, hfree⟩
    exact ⟨hunused, hdistinct, hfree⟩
  · rintro ⟨hunused, hdistinct, hfree⟩
    exact ⟨hunused, hdistinct, hfree⟩

instance (blobs : List (String × Bytes)) (store : Store) :
    Decidable (Fresh scratch blobs store) := decidable_of_iff _ (fresh_iff scratch)

/-- The disk fails for none of the blobs. -/
def Faultless (blobs : List (String × Bytes)) : Prop :=
  ∀ blob ∈ blobs, (scratch blob.1).unwritten = none ∧ (scratch blob.1).unmoved = none

/-- The names of the temporary files of blobs. -/
def Hidden (blobs : List (String × Bytes)) (name : String) : Prop :=
  ∃ blob ∈ blobs, (scratch blob.1).name = name

/-- A store and one beside whose files the temporary ones of blobs lie. -/
structure Beside (hidden : String → Prop) (held : List (String × Bytes)) (store store' : Store) :
    Prop where
  frame : store' = { store with files := store'.files }
  hosts : Hosts hidden (held.map fun blob => (scratchPlace scratch blob.1, blob.2))
    store.files store'.files

variable {scratch} {hidden : String → Prop} {tx left : Transaction} {view : Index}
  {store store' after after' ready : Store} {blob : String × Bytes}
  {blobs held held' rest : List (String × Bytes)}

theorem beside_self (store : Store) : Beside scratch hidden [] store store :=
  ⟨rfl, hosts_self hidden store.files⟩

theorem Beside.eq (h : Beside scratch hidden [] store store') : store' = store := by
  rw [h.frame, h.hosts.eq]

theorem Beside.filesRoot (h : Beside scratch hidden held store store') :
    store'.filesRoot = store.filesRoot :=
  filesRoot_congr (by rw [h.frame])

theorem scratchPlace_ne_nil (relpath : String) : scratchPlace scratch relpath ≠ [] := by
  unfold scratchPlace
  simp

/-- Temporary files that are removed leave nothing behind. -/
theorem Beside.discard (h : Beside scratch hidden held store store')
    (hdistinct : held.Pairwise fun a b => scratchPlace scratch a.1 ≠ scratchPlace scratch b.1) :
    discard scratch store' held = store := by
  induction held generalizing store' with
  | nil => exact h.eq
  | cons blob held ih =>
      obtain ⟨hblob, hheld⟩ := List.pairwise_cons.1 hdistinct
      have hleft : Beside scratch hidden held store { store' with
          files := ⟨store'.files.nodes.erase (scratchPlace scratch blob.1)⟩ } := by
        refine ⟨by rw [h.frame], Hosts.leave h.hosts ?_⟩
        simp only [List.forall_mem_map]
        exact fun other hother => (hblob other hother).symm
      exact ih hleft hheld

-- ===================================================== staging beside them

/-- One blob is staged beside temporary files as it is without them. -/
theorem Beside.stage (h : Beside scratch hidden held store store')
    (hvalid : Relpath.isValid blob.1 = true) (hshown : Shown hidden (Store.pieces blob.1)) :
    (Transaction.stage store' blob).2 = (Transaction.stage store blob).2
      ∧ Beside scratch hidden held (Transaction.stage store blob).1
        (Transaction.stage store' blob).1 := by
  obtain ⟨hanswer, hhosts⟩ := h.hosts.makeDirs
    (fun piece hpiece => hshown piece (mem_of_mem_parentPieces hpiece))
    (up_not_mem_parentPieces hvalid)
  have hscratch : store'.scratchPath blob.1 = store.scratchPath blob.1 := by rw [h.frame]; rfl
  unfold Transaction.stage
  dsimp only
  rw [h.filesRoot, hscratch]
  cases Files.refusal? (Path.parent (Path.join store.filesRoot blob.1)) with
  | some cause => exact ⟨rfl, h⟩
  | none =>
      dsimp only
      cases hmake : store.files.makeDirs (parentPieces blob.1) with
      | mk files answer =>
          cases hmake' : store'.files.makeDirs (parentPieces blob.1) with
          | mk files' answer' =>
              rw [hmake, hmake'] at hanswer hhosts
              obtain rfl : answer' = answer := hanswer
              have hbeside : Beside scratch hidden held { store with files }
                  { store' with files := files' } := ⟨by rw [h.frame], hhosts⟩
              cases answer' with
              | error cause => exact ⟨rfl, hbeside⟩
              | ok dest =>
                  dsimp only
                  cases Files.refusal? (store.scratchPath blob.1) with
                  | some cause => exact ⟨rfl, hbeside⟩
                  | none => exact ⟨rfl, hbeside⟩

/-- Staging makes no temporary files. -/
theorem node?_stage_of_hidden {q : Place} {name : String} (hvalid : Relpath.isValid blob.1 = true)
    (hshown : Shown hidden (Store.pieces blob.1)) (hname : hidden name)
    (hfree : store.files.node? (q ++ [name]) = none) :
    (stage store blob).1.files.node? (q ++ [name]) = none := by
  rcases ((stages store blob).grown hvalid).node (q ++ [name]) with heq | ⟨-, -, habove⟩
  · rw [heq, hfree]
  · -- what lies above a blob is shown
    have hmem : name ∈ (Store.place blob.1).dropLast := habove.mem (by simp)
    exact absurd hname (hshown.names name ((List.dropLast_prefix _).mem hmem))

/-- A blob that is staged has a temporary file; one that is not has none,
though its directory may be there. -/
theorem Beside.stageOne (h : Beside scratch hidden held store store')
    (hvalid : Relpath.isValid blob.1 = true) (hshown : Shown hidden (Store.pieces blob.1))
    (hname : hidden (scratch blob.1).name)
    (hfree : store.files.node? (scratchPlace scratch blob.1) = none)
    (hnew : ∀ other ∈ held, scratchPlace scratch other.1 ≠ scratchPlace scratch blob.1) :
    (∃ after', stageOne scratch store' blob = (after', .ok ())
        ∧ (Transaction.stage store blob).2 = .ok ()
        ∧ Beside scratch hidden (held ++ [blob]) (Transaction.stage store blob).1 after')
      ∨ ∃ after' e, stageOne scratch store' blob = (after', .error e)
        ∧ Beside scratch hidden held (Transaction.stage store blob).1 after'
        ∧ ((scratch blob.1).unwritten = none → (Transaction.stage store blob).2 = .error e) := by
  obtain ⟨hanswer, hbeside⟩ := h.stage hvalid hshown
  have hstill := node?_stage_of_hidden hvalid hshown hname hfree
  unfold Transaction.stageOne
  cases hone : Transaction.stage store' blob with
  | mk after' answer =>
      rw [hone] at hanswer hbeside
      dsimp only at hbeside
      rw [← hanswer]
      cases answer with
      | error e => exact .inr ⟨after', e, rfl, hbeside, fun _ => rfl⟩
      | ok _ =>
          dsimp only
          cases (scratch blob.1).unwritten with
          | some e => exact .inr ⟨after', e, rfl, hbeside, nofun⟩
          | none =>
              refine .inl ⟨_, rfl, rfl, by rw [hbeside.frame], ?_⟩
              rw [List.map_append, List.map_singleton]
              refine Hosts.arrive hbeside.hosts hname ?_ ?_ _
              · rw [← node?_of_ne (by simp)]
                exact hstill
              · simp only [List.forall_mem_map]
                exact hnew

/-- What is asked of the names of the temporary files of blobs, to stage
them after others. -/
structure Staging (scratch : Scratches) (hidden : String → Prop)
    (held rest : List (String × Bytes)) (store : Store) : Prop where
  valid : ∀ blob ∈ rest, Relpath.isValid blob.1 = true
  shown : ∀ blob ∈ rest, Shown hidden (Store.pieces blob.1)
  named : ∀ blob ∈ rest, hidden (scratch blob.1).name
  free : ∀ blob ∈ rest, store.files.node? (scratchPlace scratch blob.1) = none
  distinct : (held ++ rest).Pairwise fun a b =>
    scratchPlace scratch a.1 ≠ scratchPlace scratch b.1

/-- It is so for the others once one is staged. -/
theorem Staging.next (h : Staging scratch hidden held (blob :: rest) store) :
    Staging scratch hidden (held ++ [blob]) rest (stage store blob).1 where
  valid other hother := h.valid other (List.mem_cons_of_mem _ hother)
  shown other hother := h.shown other (List.mem_cons_of_mem _ hother)
  named other hother := h.named other (List.mem_cons_of_mem _ hother)
  free other hother := node?_stage_of_hidden (h.valid _ (List.mem_cons_self ..))
    (h.shown _ (List.mem_cons_self ..)) (h.named other (List.mem_cons_of_mem _ hother))
    (h.free other (List.mem_cons_of_mem _ hother))
  distinct := by
    rw [List.append_assoc]
    exact h.distinct

/-- Staging with temporary files stages some of the blobs, and holds the
temporary files of all that were staged, if it succeeds. -/
theorem stageScratch_spec (hstaging : Staging scratch hidden held rest store)
    (h : Beside scratch hidden held store store') {answer : Except StoreError Unit}
    (hstage : stageScratch scratch store' held rest = (after', held', answer)) :
    ∃ front, front <+: rest ∧ Beside scratch hidden held' (stageAll store front).1 after'
      ∧ held' <+: held ++ rest
      ∧ (answer = .ok () → held' = held ++ rest
          ∧ stageAll store rest = ((stageAll store front).1, .ok ()))
      ∧ (Faultless scratch rest → stageAll store rest = ((stageAll store front).1, answer)) := by
  induction rest generalizing store store' held with
  | nil =>
      cases hstage
      exact ⟨[], List.nil_prefix, h, by simp, fun _ => ⟨by simp, rfl⟩, fun _ => rfl⟩
  | cons blob rest ih =>
      have hself : blob ∈ blob :: rest := List.mem_cons_self ..
      unfold stageScratch at hstage
      rcases h.stageOne (hstaging.valid blob hself) (hstaging.shown blob hself)
          (hstaging.named blob hself) (hstaging.free blob hself)
          (fun other hother =>
            (List.pairwise_append.1 hstaging.distinct).2.2 other hother blob hself)
        with ⟨between', hone, hok, hbeside⟩ | ⟨between', e, hone, hbeside, hfault⟩
      · rw [hone] at hstage
        obtain ⟨front, hfront, hbeside', hheld, hall, hfaultless⟩ :=
          ih hstaging.next hbeside hstage
        have hrest : ∀ others, stageAll store (blob :: others)
            = stageAll (stage store blob).1 others := by
          intro others
          unfold stageAll
          rw [inTurn, ← Prod.eta (stage store blob), hok]
        rw [List.append_assoc] at hheld hall
        refine ⟨blob :: front, List.cons_prefix_cons.2 ⟨rfl, hfront⟩, ?_, hheld, ?_, ?_⟩
        · rw [hrest front]
          exact hbeside'
        · rw [hrest rest, hrest front]
          exact hall
        · rw [hrest rest, hrest front]
          exact fun hnone => hfaultless fun other hother =>
            hnone other (List.mem_cons_of_mem _ hother)
      · rw [hone] at hstage
        cases hstage
        have hone : stageAll store [blob] = stage store blob := inTurn_one ..
        refine ⟨[blob], by simp, by rw [hone]; exact hbeside, List.prefix_append .., fun hok => ?_,
          fun hnone => ?_⟩
        · cases hok
        rw [hone]
        unfold stageAll
        rw [inTurn, ← Prod.eta (stage store blob), hfault (hnone blob hself).1]

-- ===================================================== renaming them

/-- A temporary file is renamed as its blob would be moved. -/
theorem Beside.move (h : Beside scratch hidden (blob :: rest) store store')
    (hvalid : Relpath.isValid blob.1 = true) (hshown : Shown hidden (Store.pieces blob.1))
    (hnew : ∀ other ∈ rest, scratchPlace scratch blob.1 ≠ scratchPlace scratch other.1) :
    (∃ cause, reach (Path.join store.filesRoot blob.1)
          (store'.files.rename (scratchPlace scratch blob.1) (Store.pieces blob.1)) = .error cause
        ∧ Transaction.move store blob
          = (store, .error (.io (Path.join store.filesRoot blob.1) cause)))
      ∨ ∃ after files', reach (Path.join store.filesRoot blob.1)
          (store'.files.rename (scratchPlace scratch blob.1) (Store.pieces blob.1)) = .ok files'
        ∧ Transaction.move store blob = (after, .ok ())
        ∧ Beside scratch hidden rest after { store' with files := files' } := by
  have hfile : store'.files.file? (scratchPlace scratch blob.1) = some blob.2 := by
    rw [file?_eq_some, node?_of_ne (scratchPlace_ne_nil _)]
    exact h.hosts.file (scratchPlace scratch blob.1, blob.2) (by simp)
  obtain ⟨herror, hok⟩ := h.hosts.moveInto hshown (Relpath.up_not_mem hvalid) blob.2
  unfold reach rename
  rw [hfile]
  dsimp only
  rcases move_cases store blob with ⟨files, hreach, hmove⟩ | ⟨cause, hreach, hmove⟩
  · obtain ⟨htaken, hinto⟩ := reach_eq_ok_iff.1 hreach
    obtain ⟨files', hinto', hhosts⟩ := hok files hinto
    have hleft : ¬files'.walk (Store.pieces blob.1) = .ok (scratchPlace scratch blob.1) := by
      intro hwalk
      -- the path leads to a place that is shown
      obtain ⟨dir, name, hplace, hname⟩ :=
        h.hosts.named (scratchPlace scratch blob.1, blob.2) (by simp)
      have hmem : name ∈ names (Store.pieces blob.1) := by
        rw [← walk_eq hwalk (Relpath.up_not_mem hvalid),
          show scratchPlace scratch blob.1 = _ from hplace]
        simp
      exact hshown.names name hmem hname
    rw [htaken, hinto']
    dsimp only [Except.map]
    rw [if_neg hleft]
    refine .inr ⟨_, _, rfl, hmove, by rw [h.frame], Hosts.leave hhosts ?_⟩
    simp only [List.forall_mem_map]
    exact fun other hother => (hnew other hother).symm
  · refine .inl ⟨cause, ?_, hmove⟩
    rcases reach_eq_error_iff.1 hreach with hrefused | ⟨htaken, hinto⟩
    · rw [hrefused]
    · rw [htaken, herror cause hinto]
      rfl

/-- Renaming temporary files moves some of the blobs, and holds the
temporary files of those that are left. -/
theorem moveScratch_spec (hvalid : ∀ blob ∈ rest, Relpath.isValid blob.1 = true)
    (hshown : ∀ blob ∈ rest, Shown hidden (Store.pieces blob.1))
    (hdistinct : rest.Pairwise fun a b => scratchPlace scratch a.1 ≠ scratchPlace scratch b.1)
    (h : Beside scratch hidden rest store store') {answer : Except StoreError Unit}
    (hmove : moveScratch scratch store' rest = (after', held', answer)) :
    ∃ front after, rest = front ++ held' ∧ moveAll store front = (after, .ok ())
      ∧ Beside scratch hidden held' after after'
      ∧ (answer = .ok () ↔ held' = [])
      ∧ (Faultless scratch rest → moveAll store rest = (after, answer)) := by
  induction rest generalizing store store' with
  | nil =>
      cases hmove
      exact ⟨[], store, rfl, rfl, h, by simp, fun _ => rfl⟩
  | cons blob rest ih =>
      obtain ⟨hnew, hrest⟩ := List.pairwise_cons.1 hdistinct
      have hblob := h.move (hvalid _ (List.mem_cons_self ..))
        (hshown _ (List.mem_cons_self ..)) hnew
      unfold moveScratch at hmove
      cases hfault : (scratch blob.1).unmoved with
      | some e =>
          rw [hfault] at hmove
          cases hmove
          refine ⟨[], store, rfl, rfl, h, by simp, fun hnone => ?_⟩
          rw [(hnone blob (List.mem_cons_self ..)).2] at hfault
          cases hfault
      | none =>
          rw [hfault] at hmove
          dsimp only at hmove
          rw [h.filesRoot] at hmove
          unfold moveAll
          rw [inTurn]
          rcases hblob with ⟨cause, hrename, hone⟩ | ⟨between, files', hrename, hone, hbeside⟩
          · rw [hrename] at hmove
            cases hmove
            rw [hone]
            exact ⟨[], store, rfl, rfl, h, by simp, fun _ => rfl⟩
          · rw [hrename] at hmove
            obtain ⟨front, after, hfront, hmoved, hbeside', hanswer, hall⟩ :=
              ih (fun b hb => hvalid b (List.mem_cons_of_mem _ hb))
                (fun b hb => hshown b (List.mem_cons_of_mem _ hb)) hrest hbeside hmove
            rw [hone]
            refine ⟨blob :: front, after, by rw [hfront]; rfl, ?_, hbeside', hanswer,
              fun hnone => hall fun b hb => hnone b (List.mem_cons_of_mem _ hb)⟩
            rw [inTurn, hone]
            exact hmoved

-- ===================================================== how commits come out

/-- A commit without changes. -/
theorem commit_idle (hview : tx.view = some view) (hchanges : tx.hasChanges = false)
    (store : Store) : tx.commit store = (store, tx.ended tx.serial, .ok tx.serial) := by
  unfold Transaction.commit publish
  simp only [hchanges, hview, removals_eq_nil hchanges, sweep_nil, Bool.not_false, ↓reduceIte,
    Option.isSome_some]

/-- A commit whose files are refused. -/
theorem Refused.commit {e : StoreError} (h : tx.Refused store after e)
    (hchanges : tx.hasChanges = true) (hview : tx.view = some view) :
    tx.commit store = (after, tx, .error e) := by
  unfold Transaction.commit publish
  simp only [hchanges, Bool.not_true, Bool.false_eq_true, ↓reduceIte]
  rcases h with hstage | ⟨ready, hstage, hmove⟩
  · rw [hstage]
  · rw [hstage]
    simp only [hview, Option.isSome_some, ↓reduceIte]
    rw [hmove]

/-- One whose files are put in their places. -/
theorem Placed.commit (h : tx.Placed store after) (hchanges : tx.hasChanges = true)
    (hview : tx.view = some view) :
    tx.commit store = (sweep { after with index := tx.overlay view } tx.removals,
      tx.ended (tx.serial + 1), .ok (tx.serial + 1)) := by
  obtain ⟨ready, hstage, hmove⟩ := h
  unfold Transaction.commit publish
  simp only [hchanges, Bool.not_true, Bool.false_eq_true, ↓reduceIte]
  rw [hstage]
  simp only [hview, observed_eq hview, Option.isSome_some, ↓reduceIte]
  rw [hmove]

-- ===================================================== whole attempts

/-- Fresh names do for staging. -/
theorem Fresh.staging (h : Fresh scratch tx.staged store) (hpends : tx.Pends) :
    Staging scratch (Hidden scratch tx.staged) [] tx.staged store where
  valid := hpends.staged
  shown other hother := by
    intro piece hpiece hhidden
    obtain ⟨blob, hblob, rfl⟩ := hhidden
    exact h.unused blob hblob other hother hpiece
  named blob hblob := ⟨blob, hblob, rfl⟩
  free := h.free
  distinct := h.distinct

/-- An attempt that is refused has staged some of the blobs, or has staged
all and moved some. -/
inductive Stopped (scratch : Scratches) (tx : Transaction) (store : Store) :
    Store → Transaction → StoreError → Prop
  | staging {front : List (String × Bytes)} {e : StoreError}
      (hanswer : (stageScratch scratch store [] tx.staged).2.2 = .error e)
      (hfront : front <+: tx.staged)
      (hall : Faultless scratch tx.staged →
        stageAll store tx.staged = ((stageAll store front).1, .error e)) :
      Stopped scratch tx store (stageAll store front).1 tx e
  | moving {ready after : Store} {front : List (String × Bytes)} {e : StoreError}
      (hanswer : (stageScratch scratch store [] tx.staged).2.2 = .ok ())
      (hstage : stageAll store tx.staged = (ready, .ok ())) (hfront : front <+: tx.staged)
      (hne : front ≠ tx.staged) (hmove : moveAll ready front = (after, .ok ()))
      (hall : Faultless scratch tx.staged → moveAll ready tx.staged = (after, .error e)) :
      Stopped scratch tx store after tx.written e

/-- What an attempt of a transaction that has not ended comes to. -/
theorem attempt_cases (hview : tx.view = some view) (hpends : tx.Pends)
    (hfresh : Fresh scratch tx.staged store) :
    (tx.hasChanges = false
        ∧ tx.attempt scratch store = (store, tx.ended tx.serial, .ok tx.serial))
    ∨ (tx.hasChanges = true ∧ ∃ after left e, Stopped scratch tx store after left e
        ∧ tx.attempt scratch store = (after, left, .error e))
    ∨ (tx.hasChanges = true ∧ ∃ after, tx.Placed store after
        ∧ tx.attempt scratch store
          = (sweep { after with index := tx.overlay view } tx.removals,
              tx.ended (tx.serial + 1), .ok (tx.serial + 1))) := by
  cases hchanges : tx.hasChanges with
  | false =>
      refine .inl ⟨rfl, ?_⟩
      unfold attempt
      rw [hchanges]
      exact commit_idle hview hchanges store
  | true =>
      apply Or.inr
      unfold attempt
      simp only [hchanges, hview, observed_eq hview, Bool.not_true, Bool.false_eq_true, ↓reduceIte,
        Option.isSome_some]
      have hstaging := hfresh.staging hpends
      cases hstage : stageScratch scratch store [] tx.staged with
      | mk ready' staged =>
          obtain ⟨held, answer⟩ := staged
          obtain ⟨front, hfront, hbeside, hheld, hok, hall⟩ :=
            stageScratch_spec hstaging (beside_self store) hstage
          rw [List.nil_append] at hheld hok
          cases answer with
          | error e =>
              dsimp only
              rw [hbeside.discard (hfresh.distinct.sublist hheld.sublist)]
              exact .inl ⟨trivial, _, _, e, .staging (by rw [hstage]) hfront hall, rfl⟩
          | ok _ =>
              obtain ⟨rfl, hready⟩ := hok rfl
              dsimp only
              cases hmove : moveScratch scratch ready' tx.staged with
              | mk after' moved =>
                  obtain ⟨left, answer⟩ := moved
                  obtain ⟨front, after, hsplit, hmoved, hbeside', hanswer, hall⟩ :=
                    moveScratch_spec hpends.staged hstaging.shown hfresh.distinct hbeside hmove
                  cases answer with
                  | error e =>
                      have hne : left ≠ [] := fun hnil => nomatch hanswer.2 hnil
                      have hdistinct := hfresh.distinct
                      rw [hsplit] at hdistinct
                      dsimp only
                      rw [hbeside'.discard (List.pairwise_append.1 hdistinct).2.1]
                      refine .inl ⟨trivial, _, _, e,
                        .moving (by rw [hstage]) hready ?_ ?_ hmoved hall, rfl⟩
                      · rw [hsplit]
                        exact List.prefix_append ..
                      · rw [hsplit]
                        simpa using hne.symm
                  | ok _ =>
                      obtain rfl := hanswer.1 rfl
                      rw [List.append_nil] at hsplit
                      refine .inr ⟨trivial, after, ⟨_, hready, by rw [hsplit]; exact hmoved⟩, ?_⟩
                      rw [hbeside'.eq]

/-- Where the disk does not fail, an attempt that is stopped is a commit that
is refused. -/
theorem Stopped.refused {e : StoreError} (h : Stopped scratch tx store after left e)
    (hfaultless : Faultless scratch tx.staged) : tx.Refused store after e := by
  cases h with
  | staging _ _ hall => exact .inl (hall hfaultless)
  | moving _ hstage _ _ _ hall => exact .inr ⟨_, hstage, hall hfaultless⟩

/-- Where the disk does not fail, an attempt leaves and answers what the
commit does. -/
theorem attempt_eq_commit (hview : tx.view = some view) (hpends : tx.Pends)
    (hfresh : Fresh scratch tx.staged store) (hfaultless : Faultless scratch tx.staged) :
    (tx.attempt scratch store).1 = (tx.commit store).1
      ∧ (tx.attempt scratch store).2.2 = (tx.commit store).2.2 := by
  rcases attempt_cases hview hpends hfresh with
    ⟨hchanges, hattempt⟩ | ⟨hchanges, after, left, e, hstopped, hattempt⟩
    | ⟨hchanges, after, hplaced, hattempt⟩
  · rw [hattempt, commit_idle hview hchanges]
    exact ⟨rfl, rfl⟩
  · rw [hattempt, (hstopped.refused hfaultless).commit hchanges hview]
    exact ⟨rfl, rfl⟩
  · rw [hattempt, hplaced.commit hchanges hview]
    exact ⟨rfl, rfl⟩

end Transaction

end Depot
