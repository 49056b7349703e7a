/-
Writers that overtake each other. A commit frees the lock as soon as its
index is the current one, and only then removes the files of the blobs
that it deleted; by then another writer may have put files in the same
places. A `Race` is a store on which one writer still has files to remove
while another one begins, edits and commits, in single steps; a writer
that nobody comes between commits as `Transaction.commit` says
(`Writer.commit_steps`).

`overtaken_iff` says what is read afterwards at a relpath that the later
writer has set: what the last touch of its place has left there, which is
not always what was committed.
-/
import Depot.Proofs.Store.Publishing
import Mathlib.Data.List.Nodup
import Mathlib.Logic.Relation

namespace Depot

open Files Transaction

-- ===================================================== touching files

/-- What a commit does to files, once its directories are made. -/
inductive Touch where
  | put (relpath : String) (content : Bytes)
  | remove (relpath : String)
deriving DecidableEq, Repr

namespace Touch

/-- Whether a touch is one of the file at a place. -/
def isAt (filesRoot : String) (q : Place) : Touch → Bool
  | put relpath _ => decide (Store.place relpath = q)
  | remove relpath => empties filesRoot q relpath

/-- What it makes of that file. -/
def content? : Touch → Option Bytes
  | put _ content => some content
  | remove _ => none

/-- The file at a place after a touch. -/
def leaves (filesRoot : String) (q : Place) (old : Option Bytes) (touch : Touch) : Option Bytes :=
  if touch.isAt filesRoot q then touch.content? else old

variable {filesRoot : String} {q : Place} {touches : List Touch}

/-- Touches elsewhere do not matter. -/
theorem foldl_filter (touches : List Touch) (old : Option Bytes) :
    (touches.filter (isAt filesRoot q)).foldl (leaves filesRoot q) old
      = touches.foldl (leaves filesRoot q) old := by
  induction touches generalizing old with
  | nil => rfl
  | cons touch rest ih =>
      rw [List.filter_cons, List.foldl_cons]
      split
      · rw [List.foldl_cons, ih]
      · next helse =>
        rw [ih]
        unfold leaves
        rw [if_neg helse]

/-- Nor does what was there before a touch of the place. -/
theorem foldl_of_isAt {touch : Touch} (hmem : touch ∈ touches)
    (hat : touch.isAt filesRoot q = true) (a b : Option Bytes) :
    touches.foldl (leaves filesRoot q) a = touches.foldl (leaves filesRoot q) b := by
  induction touches generalizing a b with
  | nil => cases hmem
  | cons first rest ih =>
      rcases List.mem_cons.1 hmem with rfl | hmem
      · rw [List.foldl_cons, List.foldl_cons]
        unfold leaves
        rw [if_pos hat, if_pos hat]
      · exact ih hmem _ _

end Touch

/-- The touches of a commit, in order. -/
def Transaction.touches (tx : Transaction) : List Touch :=
  tx.staged.map (fun blob => .put blob.1 blob.2) ++ tx.removals.map .remove

/-- From one store to another, some files were touched. -/
structure Touched (store after : Store) (touches : List Touch) : Prop where
  root : after.root = store.root
  dirs : KeepsDirs store.files after.files
  closed : after.files.Closed
  file : ∀ q, after.files.file? q
    = touches.foldl (Touch.leaves store.filesRoot q) (store.files.file? q)

/-- A relpath at whose place a file can lie, and no directory lies. -/
structure Lies (store : Store) (relpath : String) : Prop extends Stands store relpath where
  free : store.files.node? (Store.place relpath) ≠ some .dir

section

variable {store after : Store} {relpath : String} {tx : Transaction}

theorem Lies.mono (h : Lies store relpath) (hroot : after.root = store.root)
    (hdirs : KeepsDirs store.files after.files)
    (hfree : after.files.node? (Store.place relpath) = some .dir →
      store.files.node? (Store.place relpath) = some .dir) : Lies after relpath :=
  ⟨h.toStands.mono hroot hdirs, fun hdir => h.free (hfree hdir)⟩

/-- What is read at a relpath that was committed. -/
theorem Lies.getBlob (h : Lies store relpath) (hclosed : store.files.Closed)
    (hcommitted : store.index.blobs.contains relpath = true) (n : UInt64) (writable : Bool) :
    (Site.fresh store n writable).getBlob store relpath
      = .ok (store.files.file? (Store.place relpath)) := by
  have hseen := @seen_eq (Site.fresh store n writable) _ _ _ rfl
    (by simp [Site.fresh]) hclosed fun _ => h.toStands
  have hcontent := congrArg Seen.content hseen
  rw [if_pos hcommitted] at hcontent
  refine Eq.trans hcontent ?_
  have hfree := h.free
  unfold Tree.file?
  cases hnode : store.files.node? (Store.place relpath) with
  | none => rfl
  | some node => cases node with
    | dir => exact absurd hnode hfree
    | file content => rfl

-- ----------------------------------------------------- single touches

/-- Making directories touches no file. -/
theorem touched_stage {blob : String × Bytes} {result : Except StoreError Unit}
    (hclosed : store.files.Closed) (hvalid : Relpath.isValid blob.1 = true)
    (h : Transaction.stage store blob = (after, result)) : Touched store after [] := by
  have hgrown := (stages_of_eq h).grown hvalid
  refine ⟨by rw [(stages_of_eq h).frame], fun q => hgrown.dir, hgrown.closed hclosed, fun q => ?_⟩
  rw [List.foldl_nil]
  unfold Tree.file?
  rcases hgrown.node q with heq | ⟨hnone, hdir, -⟩
  · rw [heq]
  · rw [hnone, hdir]

/-- Moving one blob. -/
theorem moved_of_move {blob : String × Bytes} (hvalid : Relpath.isValid blob.1 = true)
    (h : Transaction.move store blob = (after, .ok ())) : Moved store after [blob] := by
  obtain ⟨files, hreach, rfl⟩ := move_eq_ok h
  exact moved_one hvalid hreach

theorem touched_move {blob : String × Bytes} (hclosed : store.files.Closed)
    (hvalid : Relpath.isValid blob.1 = true)
    (h : Transaction.move store blob = (after, .ok ())) :
    Touched store after [.put blob.1 blob.2] := by
  have hmoved := moved_of_move hvalid h
  obtain ⟨files, -, rfl⟩ := move_eq_ok h
  refine ⟨rfl, hmoved.dirs, hmoved.closed hclosed, fun q => ?_⟩
  have hnode := hmoved.node q
  rw [List.foldl_cons, List.foldl_nil] at hnode ⊢
  unfold Tree.file? Touch.leaves Touch.isAt
  rw [hnode]
  unfold shelve
  by_cases hplace : Store.place blob.1 = q
  · rw [if_pos hplace, if_pos (decide_eq_true hplace)]
    rfl
  · rw [if_neg hplace, if_neg (by simpa using hplace)]

/-- No directory comes to lie where a blob is moved, or elsewhere. -/
theorem Lies.move {blob : String × Bytes} (h : Lies store relpath)
    (hvalid : Relpath.isValid blob.1 = true)
    (hmove : Transaction.move store blob = (after, .ok ())) : Lies after relpath := by
  have hmoved := moved_of_move hvalid hmove
  obtain ⟨files, -, rfl⟩ := move_eq_ok hmove
  refine h.mono rfl hmoved.dirs fun hdir => ?_
  rw [hmoved.node, List.foldl_cons, List.foldl_nil] at hdir
  unfold shelve at hdir
  split at hdir
  · cases hdir
  · exact hdir

/-- The blob that is moved lies there. -/
theorem lies_of_move {blob : String × Bytes} (hvalid : Relpath.isValid blob.1 = true)
    (hmove : Transaction.move store blob = (after, .ok ())) : Lies after blob.1 := by
  have hmoved := moved_of_move hvalid hmove
  refine ⟨hmoved.stands blob (List.mem_singleton_self blob), fun hdir => ?_⟩
  rw [hmoved.node, List.foldl_cons, List.foldl_nil] at hdir
  unfold shelve at hdir
  rw [if_pos rfl] at hdir
  cases hdir

theorem sweepOne_index (store : Store) (relpath : String) :
    (sweepOne store relpath).index = store.index := by
  unfold sweepOne
  split <;> rfl

/-- Removing touches one file. -/
theorem touched_sweep (hclosed : store.files.Closed) (hvalid : Relpath.isValid relpath = true) :
    Touched store (sweepOne store relpath) [.remove relpath] := by
  have hnode := node?_sweepOne hclosed hvalid
  have hroot : (sweepOne store relpath).root = store.root := by
    unfold sweepOne
    split <;> rfl
  refine ⟨hroot, fun q hq => ?_, sweepOne_closed hclosed hvalid, fun q => ?_⟩
  · rw [hnode, hq]
    rfl
  · rw [List.foldl_cons, List.foldl_nil]
    unfold Tree.file? Touch.leaves Touch.isAt Touch.content?
    rw [hnode]
    dsimp only
    cases store.files.node? q with
    | none => exact (ite_self none).symm
    | some node => cases node with
      | dir => exact (ite_self none).symm
      | file content =>
          unfold swept
          dsimp only
          by_cases hempties : empties store.filesRoot q relpath = true
          · rw [if_pos hempties, if_pos hempties]
          · rw [if_neg hempties, if_neg hempties]

theorem Lies.sweep {other : String} (h : Lies store other) (hclosed : store.files.Closed)
    (hvalid : Relpath.isValid relpath = true) : Lies (sweepOne store relpath) other := by
  have htouched := touched_sweep hclosed hvalid
  refine h.mono htouched.root htouched.dirs fun hdir => ?_
  rw [node?_sweepOne hclosed hvalid] at hdir
  cases hnode : store.files.node? (Store.place other) with
  | none => rw [hnode] at hdir; cases hdir
  | some node => cases node with
    | dir => rfl
    | file content =>
        rw [hnode] at hdir
        unfold swept at hdir
        dsimp only at hdir
        split at hdir <;> cases hdir

end

-- ===================================================== the later writer

/-- How far a writer has come. -/
inductive Writer where
  | waiting
  | editing (tx : Transaction)
  /-- There are blobs whose directories are yet to be made, -/
  | staging (tx : Transaction) (left : List (String × Bytes))
  /-- or that are yet to be moved, -/
  | moving (tx : Transaction) (left : List (String × Bytes))
  /-- or files that are yet to be removed. -/
  | sweeping (tx : Transaction) (left : List String)
  | done (tx : Transaction)
  | refused (e : StoreError)

namespace Writer

/-- What a writer does next. Between any two steps others may come. -/
inductive Step : Store → Writer → List Touch → Store → Writer → Prop
  | begin {store : Store} {tx : Transaction} (h : start store true = .ok tx) :
      Step store .waiting [] store (.editing tx)
  | edit {store : Store} {tx tx' : Transaction} {e : Edit} (h : tx.edit e = .ok tx') :
      Step store (.editing tx) [] store (.editing tx')
  | idle {store : Store} {tx : Transaction} (h : tx.hasChanges = false) :
      Step store (.editing tx) [] store (.done tx)
  | commit {store : Store} {tx : Transaction} (h : tx.hasChanges = true) :
      Step store (.editing tx) [] store (.staging tx tx.staged)
  | stage {store after : Store} {tx : Transaction} {blob : String × Bytes}
      {left : List (String × Bytes)} (h : Transaction.stage store blob = (after, .ok ())) :
      Step store (.staging tx (blob :: left)) [] after (.staging tx left)
  | stageRefused {store after : Store} {tx : Transaction} {blob : String × Bytes}
      {left : List (String × Bytes)} {e : StoreError}
      (h : Transaction.stage store blob = (after, .error e)) :
      Step store (.staging tx (blob :: left)) [] after (.refused e)
  | staged {store : Store} {tx : Transaction} :
      Step store (.staging tx []) [] store (.moving tx tx.staged)
  | move {store after : Store} {tx : Transaction} {blob : String × Bytes}
      {left : List (String × Bytes)} (h : Transaction.move store blob = (after, .ok ())) :
      Step store (.moving tx (blob :: left)) [.put blob.1 blob.2] after (.moving tx left)
  | moveRefused {store after : Store} {tx : Transaction} {blob : String × Bytes}
      {left : List (String × Bytes)} {e : StoreError}
      (h : Transaction.move store blob = (after, .error e)) :
      Step store (.moving tx (blob :: left)) [] after (.refused e)
  | publish {store : Store} {tx : Transaction} :
      Step store (.moving tx []) [] { store with index := tx.overlay (tx.observed store) }
        (.sweeping tx tx.removals)
  | sweep {store : Store} {tx : Transaction} {relpath : String} {left : List String} :
      Step store (.sweeping tx (relpath :: left)) [.remove relpath] (sweepOne store relpath)
        (.sweeping tx left)
  | swept {store : Store} {tx : Transaction} : Step store (.sweeping tx []) [] store (.done tx)

/-- Steps that nobody comes between. -/
inductive Alone (store : Store) (w : Writer) : Store → Writer → Prop
  | refl : Alone store w store w
  | tail {between after : Store} {w' w'' : Writer} {touches : List Touch} :
      Alone store w between w' → Step between w' touches after w'' → Alone store w after w''

theorem Alone.trans {store between after : Store} {w w' w'' : Writer}
    (h : Alone store w between w') (h' : Alone between w' after w'') : Alone store w after w'' := by
  induction h' with
  | refl => exact h
  | tail _ hstep ih => exact ih.tail hstep

theorem Alone.head {store between after : Store} {w w' w'' : Writer} {touches : List Touch}
    (hstep : Step store w touches between w') (h : Alone between w' after w'') :
    Alone store w after w'' :=
  Alone.trans (.tail .refl hstep) h

variable {store after : Store} {tx : Transaction}

/-- What a writer does for each of a list, one after the other. -/
theorem alone_inTurn {α : Type} {act : Store → α → Store × Except StoreError Unit}
    (state : List α → Writer)
    (hstep : ∀ x rest {store after}, act store x = (after, .ok ()) →
      ∃ touches, Step store (state (x :: rest)) touches after (state rest))
    (hrefused : ∀ x rest {store after e}, act store x = (after, .error e) →
      ∃ touches, Step store (state (x :: rest)) touches after (.refused e))
    (left : List α) (store : Store) :
    match inTurn act store left with
    | (after, .ok ()) => Alone store (state left) after (state [])
    | (after, .error e) => Alone store (state left) after (.refused e) := by
  induction left generalizing store with
  | nil => exact .refl
  | cons x rest ih =>
      rw [inTurn]
      cases hone : act store x with
      | mk between result =>
          cases result with
          | error e =>
              obtain ⟨touches, hend⟩ := hrefused x rest hone
              exact .tail .refl hend
          | ok _ =>
              obtain ⟨touches, hfirst⟩ := hstep x rest hone
              have hrest := ih between
              dsimp only
              cases hall : inTurn act between rest with
              | mk after result =>
                  rw [hall] at hrest
                  cases result with
                  | ok _ => exact .head hfirst hrest
                  | error e => exact .head hfirst hrest

theorem alone_stageAll (left : List (String × Bytes)) (store : Store) :
    match stageAll store left with
    | (after, .ok ()) => Alone store (.staging tx left) after (.staging tx [])
    | (after, .error e) => Alone store (.staging tx left) after (.refused e) :=
  alone_inTurn (.staging tx) (fun _ _ _ _ h => ⟨_, .stage h⟩)
    (fun _ _ _ _ _ h => ⟨_, .stageRefused h⟩) left store

theorem alone_moveAll (left : List (String × Bytes)) (store : Store) :
    match moveAll store left with
    | (after, .ok ()) => Alone store (.moving tx left) after (.moving tx [])
    | (after, .error e) => Alone store (.moving tx left) after (.refused e) :=
  alone_inTurn (.moving tx) (fun _ _ _ _ h => ⟨_, .move h⟩)
    (fun _ _ _ _ _ h => ⟨_, .moveRefused h⟩) left store

theorem alone_sweep (left : List String) (store : Store) :
    Alone store (.sweeping tx left) (Transaction.sweep store left) (.done tx) := by
  induction left generalizing store with
  | nil => exact .tail .refl .swept
  | cons relpath rest ih =>
      rw [sweep_cons]
      exact .head .sweep (ih (sweepOne store relpath))

/-- Staging everything and going on to move it. -/
theorem alone_staged {ready : Store} (hstage : stageAll store tx.staged = (ready, .ok ())) :
    Alone store (.staging tx tx.staged) ready (.moving tx tx.staged) := by
  have hstaging := @alone_stageAll tx tx.staged store
  rw [hstage] at hstaging
  exact hstaging.tail .staged

/-- A writer that nobody comes between commits as transactions do. -/
theorem commit_steps (hlive : tx.view.isSome = true) (store : Store) :
    Alone store (.editing tx) (tx.commit store).1
      (match (tx.commit store).2.2 with
        | .ok _ => .done tx
        | .error e => .refused e) := by
  obtain ⟨view, hview⟩ := Option.isSome_iff_exists.1 hlive
  rcases commit_cases hview store with
    ⟨hchanges, hcommit⟩ | ⟨hchanges, after, e, hstage | ⟨ready, hstage, hmove⟩, hcommit⟩
    | ⟨hchanges, after, ⟨ready, hstage, hmove⟩, hcommit⟩
  · rw [hcommit]
    exact .tail .refl (.idle hchanges)
  · have hstaging := @alone_stageAll tx tx.staged store
    rw [hstage] at hstaging
    rw [hcommit]
    exact .head (.commit hchanges) hstaging
  · have hmoving := @alone_moveAll tx tx.staged ready
    rw [hmove] at hmoving
    rw [hcommit]
    exact .head (.commit hchanges) ((alone_staged hstage).trans hmoving)
  · have hmoving := @alone_moveAll tx tx.staged ready
    rw [hmove] at hmoving
    rw [hcommit, ← observed_eq hview after]
    have hpublished := (alone_staged hstage).trans (hmoving.tail .publish)
    exact .head (.commit hchanges) (hpublished.trans (alone_sweep _ _))

-- ----------------------------------------------------- what a writer has done

/-- A transaction on the current index. -/
structure Begun (store : Store) (tx : Transaction) : Prop where
  pends : tx.Pends
  view : tx.view = some store.index

/-- Its blobs are committed and can be read. -/
structure Published (store : Store) (tx : Transaction) : Prop where
  pends : tx.Pends
  lies : ∀ blob ∈ tx.staged, Lies store blob.1
  committed : ∀ blob ∈ tx.staged, store.index.blobs.contains blob.1 = true

/-- How a writer that has made these touches fits a store. -/
inductive Fits (store : Store) : List Touch → Writer → Prop
  | waiting : Fits store [] .waiting
  | editing {tx : Transaction} (h : Begun store tx) : Fits store [] (.editing tx)
  | staging {tx : Transaction} {ready left : List (String × Bytes)} (h : Begun store tx)
      (hall : tx.staged = ready ++ left) : Fits store [] (.staging tx left)
  | moving {tx : Transaction} {moved left : List (String × Bytes)} (h : Begun store tx)
      (hall : tx.staged = moved ++ left) (hlies : ∀ blob ∈ moved, Lies store blob.1) :
      Fits store (moved.map fun blob => .put blob.1 blob.2) (.moving tx left)
  | sweeping {tx : Transaction} {swept left : List String} (h : Published store tx)
      (hall : tx.removals = swept ++ left) :
      Fits store ((tx.staged.map fun blob => .put blob.1 blob.2) ++ swept.map .remove)
        (.sweeping tx left)
  | done {tx : Transaction} (h : Published store tx) : Fits store tx.touches (.done tx)
  | refused {touches : List Touch} {e : StoreError} : Fits store touches (.refused e)

theorem Fits.of_done {touches : List Touch} (h : Fits store touches (.done tx)) :
    touches = tx.touches ∧ Published store tx := by
  cases h with
  | done h => exact ⟨rfl, h⟩

theorem Begun.mono (h : Begun store tx) (hindex : after.index = store.index) : Begun after tx :=
  ⟨h.pends, by rw [hindex]; exact h.view⟩

theorem Published.mono (h : Published store tx) (hindex : after.index = store.index)
    (hlies : ∀ relpath, Lies store relpath → Lies after relpath) : Published after tx :=
  ⟨h.pends, fun blob hmem => hlies _ (h.lies blob hmem),
    fun blob hmem => by rw [hindex]; exact h.committed blob hmem⟩

/-- A writer goes on fitting while another one removes files. -/
theorem Fits.mono {touches : List Touch} {w : Writer} (h : Fits store touches w)
    (hindex : after.index = store.index)
    (hlies : ∀ relpath, Lies store relpath → Lies after relpath) : Fits after touches w := by
  cases h with
  | waiting => exact .waiting
  | editing h => exact .editing (h.mono hindex)
  | staging h hall => exact .staging (h.mono hindex) hall
  | moving h hall hmoved =>
      exact .moving (h.mono hindex) hall fun blob hmem => hlies _ (hmoved blob hmem)
  | sweeping h hall => exact .sweeping (h.mono hindex hlies) hall
  | done h => exact .done (h.mono hindex hlies)
  | refused => exact .refused

/-- The index that a transaction makes the current one. -/
theorem Begun.published (h : Begun store tx) (hlies : ∀ blob ∈ tx.staged, Lies store blob.1) :
    Published { store with index := tx.overlay (tx.observed store) } tx where
  pends := h.pends
  lies blob hmem := (hlies blob hmem).mono rfl (.refl _) id
  committed blob hmem := by
    dsimp only
    rw [contains_overlay, mem_staged.1 hmem]
    rfl

variable {did : List Touch}

/-- Making the directories of one blob, which may be refused. -/
theorem Fits.stage {blob : String × Bytes} {left : List (String × Bytes)}
    {result : Except StoreError Unit} (h : Fits store did (.staging tx (blob :: left)))
    (hclosed : store.files.Closed) (hstage : Transaction.stage store blob = (after, result)) :
    Touched store after [] ∧ Fits after did (.staging tx left) ∧ after.index = store.index := by
  cases h with
  | staging hbegun hall =>
      have hvalid := hbegun.pends.staged blob (by simp [hall])
      have hindex : after.index = store.index := by rw [(stages_of_eq hstage).frame]
      exact ⟨touched_stage hclosed hvalid hstage,
        .staging (hbegun.mono hindex) (hall.trans (List.append_cons ..)), hindex⟩

/-- Moving one blob. -/
theorem Fits.move {blob : String × Bytes} {left : List (String × Bytes)}
    (h : Fits store did (.moving tx (blob :: left))) (hclosed : store.files.Closed)
    (hmove : Transaction.move store blob = (after, .ok ())) :
    Touched store after [.put blob.1 blob.2]
      ∧ Fits after (did ++ [.put blob.1 blob.2]) (.moving tx left)
      ∧ after.index = store.index := by
  cases h with
  | moving hbegun hall hlies =>
      have hvalid := hbegun.pends.staged blob (by simp [hall])
      have hindex : after.index = store.index := by
        obtain ⟨files, -, rfl⟩ := move_eq_ok hmove
        rfl
      have hmoved : ∀ b ∈ _ ++ [blob], Lies after b.1 := List.forall_mem_append.2
        ⟨fun b hmem => (hlies b hmem).move hvalid hmove,
          List.forall_mem_singleton.2 (lies_of_move hvalid hmove)⟩
      have hfits := Fits.moving (hbegun.mono hindex) (hall.trans (List.append_cons ..)) hmoved
      rw [List.map_append] at hfits
      exact ⟨touched_move hclosed hvalid hmove, hfits, hindex⟩

/-- Making the new index the current one. -/
theorem Fits.publish (h : Fits store did (.moving tx [])) :
    Fits { store with index := tx.overlay (tx.observed store) } did (.sweeping tx tx.removals)
      ∧ ∀ n : UInt64, store.index.serial = some (toString n) →
        (tx.overlay (tx.observed store)).serial = some (toString (tx.serial + 1)) := by
  cases h with
  | moving hbegun hall hlies =>
      rw [List.append_nil] at hall
      subst hall
      have hfits := Fits.sweeping (hbegun.published hlies) (List.nil_append _).symm
      rw [List.map_nil, List.append_nil] at hfits
      refine ⟨hfits, fun n hserial => ?_⟩
      rw [observed_eq hbegun.view]
      unfold overlay
      dsimp only
      rw [hserial]
      rfl

/-- Removing one file. -/
theorem Fits.sweep {relpath : String} {left : List String}
    (h : Fits store did (.sweeping tx (relpath :: left))) (hclosed : store.files.Closed) :
    Touched store (sweepOne store relpath) [.remove relpath]
      ∧ Fits (sweepOne store relpath) (did ++ [.remove relpath]) (.sweeping tx left)
      ∧ (sweepOne store relpath).index = store.index := by
  cases h with
  | sweeping hpublished hall =>
      have hvalid := hpublished.pends.removals relpath (by simp [hall])
      have hindex := sweepOne_index store relpath
      have hfits := Fits.sweeping
        (hpublished.mono hindex fun _ hlies => hlies.sweep hclosed hvalid)
        (hall.trans (List.append_cons ..))
      rw [List.map_append, ← List.append_assoc] at hfits
      exact ⟨touched_sweep hclosed hvalid, hfits, hindex⟩

/-- A writer without changes has nothing to do. -/
theorem Fits.idle (h : Fits store did (.editing tx)) (hchanges : tx.hasChanges = false) :
    Fits store did (.done tx) := by
  cases h with
  | editing hbegun =>
      have hnone := staged_eq_nil hchanges
      have hfits : Fits store _ (.done tx) :=
        .done ⟨hbegun.pends, by simp [hnone], by simp [hnone]⟩
      unfold Transaction.touches at hfits
      rwa [hnone, removals_eq_nil hchanges] at hfits

/-- What one step of a writer does: it touches files as it says, keeps the
serial a number, and goes on fitting. -/
theorem Step.spec {w w' : Writer} {touches : List Touch} (h : Step store w touches after w')
    (hfits : Fits store did w) (hclosed : store.files.Closed)
    (hserial : ∃ n : UInt64, store.index.serial = some (toString n)) :
    Touched store after touches ∧ Fits after (did ++ touches) w'
      ∧ ∃ n : UInt64, after.index.serial = some (toString n) := by
  have hsame : Touched store store [] := ⟨rfl, .refl _, hclosed, fun _ => rfl⟩
  cases h with
  | begin hstart =>
      obtain ⟨n, hn⟩ := hserial
      rw [Site.start_eq hn] at hstart
      cases hstart
      cases hfits
      exact ⟨hsame, .editing ⟨Site.pends_fresh _ _ _, rfl⟩, n, hn⟩
  | edit hedit =>
      cases hfits with
      | editing hbegun =>
        refine ⟨hsame, .editing ⟨Site.pends_edit hbegun.pends hedit, ?_⟩, hserial⟩
        rw [(Site.edit_eq hedit).2]
        exact hbegun.view
  | idle hchanges =>
      rw [List.append_nil]
      exact ⟨hsame, hfits.idle hchanges, hserial⟩
  | commit hchanges =>
      cases hfits with
      | editing hbegun => exact ⟨hsame, .staging hbegun (List.nil_append _).symm, hserial⟩
  | stage hstage =>
      obtain ⟨htouched, hthen, hindex⟩ := hfits.stage hclosed hstage
      rw [List.append_nil, hindex]
      exact ⟨htouched, hthen, hserial⟩
  | stageRefused hstage =>
      obtain ⟨htouched, -, hindex⟩ := hfits.stage hclosed hstage
      rw [hindex]
      exact ⟨htouched, .refused, hserial⟩
  | staged =>
      cases hfits with
      | staging hbegun hall =>
        exact ⟨hsame, .moving hbegun (List.nil_append _).symm (List.forall_mem_nil _), hserial⟩
  | move hmove =>
      obtain ⟨htouched, hthen, hindex⟩ := hfits.move hclosed hmove
      rw [hindex]
      exact ⟨htouched, hthen, hserial⟩
  | moveRefused hmove =>
      obtain ⟨rfl, -⟩ := Transaction.move_eq_error hmove
      exact ⟨hsame, .refused, hserial⟩
  | publish =>
      obtain ⟨hthen, hcounts⟩ := hfits.publish
      obtain ⟨n, hn⟩ := hserial
      rw [List.append_nil]
      exact ⟨⟨rfl, .refl _, hclosed, fun _ => rfl⟩, hthen, _, hcounts n hn⟩
  | sweep =>
      obtain ⟨htouched, hthen, hindex⟩ := hfits.sweep hclosed
      rw [hindex]
      exact ⟨htouched, hthen, hserial⟩
  | swept =>
      cases hfits with
      | sweeping hpublished hall =>
        rw [List.append_nil] at hall
        subst hall
        rw [List.append_nil]
        exact ⟨hsame, .done hpublished, hserial⟩

end Writer

-- ===================================================== races

/-- Of two writers, the one that holds the lock first, and the other one. -/
inductive Party where
  | earlier
  | later
deriving DecidableEq, Repr

/-- The touches of one of them, in order. -/
def Party.touches (party : Party) (log : List (Party × Touch)) : List Touch :=
  (log.filter fun entry => entry.1 = party).map (·.2)

theorem Party.touches_append (party : Party) (log log' : List (Party × Touch)) :
    party.touches (log ++ log') = party.touches log ++ party.touches log' := by
  unfold touches
  rw [List.filter_append, List.map_append]

theorem Party.touches_tagged (party who : Party) (touches : List Touch) :
    party.touches (touches.map (who, ·)) = if who = party then touches else [] := by
  unfold Party.touches
  split
  · next hwho => simp [List.filter_map, Function.comp_def, hwho]
  · next hwho => simp [List.filter_map, Function.comp_def, hwho]

/-- The entries of one of them. -/
theorem Party.filter_eq (party : Party) (log : List (Party × Touch)) :
    log.filter (fun entry => entry.1 = party) = (party.touches log).map (party, ·) := by
  unfold touches
  rw [List.map_map]
  refine ((List.map_congr_left fun entry hmem => ?_).trans (List.map_id _)).symm
  have htag : entry.1 = party := of_decide_eq_true (List.mem_filter.1 hmem).2
  rw [← htag]
  rfl

/-- A store on which one writer has committed and has files to remove,
while another one writes; and which of them touched which files so far. -/
structure Race where
  store : Store
  /-- The relpaths that the earlier writer has yet to remove the files of. -/
  overdue : List String
  writer : Writer := .waiting
  log : List (Party × Touch) := []

namespace Race

/-- Either of the two goes on. -/
inductive Step : Race → Race → Prop
  | earlier {r : Race} {relpath : String} {rest : List String} (h : r.overdue = relpath :: rest) :
      Step r { r with
        store := sweepOne r.store relpath
        overdue := rest
        log := r.log ++ [(.earlier, .remove relpath)] }
  | later {r : Race} {store : Store} {writer : Writer} {touches : List Touch}
      (h : Writer.Step r.store r.writer touches store writer) :
      Step r { r with store, writer, log := r.log ++ touches.map (.later, ·) }

/-- The file at a place, as far as the log tells. -/
def lastly (r : Race) (q : Place) : Option Bytes :=
  (r.log.map (·.2)).foldl (Touch.leaves r.store.filesRoot q) none

/-- What the log tells of the file at a place. -/
def entriesAt (r : Race) (q : Place) : List (Party × Touch) :=
  r.log.filter fun entry => entry.2.isAt r.store.filesRoot q

/-- What holds as a race goes on that began on a store. -/
structure Sound (tx : Transaction) (origin : Store) (r : Race) : Prop where
  root : r.store.root = origin.root
  closed : r.store.files.Closed
  serial : ∃ n : UInt64, r.store.index.serial = some (toString n)
  file : ∀ q, r.store.files.file? q
    = (r.log.map (·.2)).foldl (Touch.leaves origin.filesRoot q) (origin.files.file? q)
  earlier : ∃ removed, tx.removals = removed ++ r.overdue
    ∧ Party.earlier.touches r.log = removed.map .remove
  later : r.writer.Fits r.store (Party.later.touches r.log)

variable {tx : Transaction} {origin : Store} {r r' : Race}

/-- Files of which the log tells. -/
theorem Sound.file_append (h : Sound tx origin r) {store : Store} {touches : List Touch}
    (htouched : Touched r.store store touches) (party : Party) (q : Place) :
    store.files.file? q
      = ((r.log ++ touches.map (party, ·)).map (·.2)).foldl (Touch.leaves origin.filesRoot q)
          (origin.files.file? q) := by
  rw [htouched.file, h.file, filesRoot_congr h.root, List.map_append, List.foldl_append,
    List.map_map]
  exact congrArg _ (List.map_id _).symm

/-- One step. -/
theorem Step.sound (hstep : Step r r') (hpends : tx.Pends) (h : Sound tx origin r) :
    Sound tx origin r' := by
  cases hstep with
  | @earlier relpath rest hoverdue =>
      obtain ⟨removed, hall, htouches⟩ := h.earlier
      have hvalid := hpends.removals relpath (by simp [hall, hoverdue])
      have htouched := touched_sweep h.closed hvalid
      have hindex := sweepOne_index r.store relpath
      exact {
        root := htouched.root.trans h.root
        closed := htouched.closed
        serial := by
          dsimp only
          rw [hindex]
          exact h.serial
        file := h.file_append htouched .earlier
        earlier := by
          refine ⟨removed ++ [relpath], by rw [hall, hoverdue, List.append_cons], ?_⟩
          rw [List.map_append, ← htouches]
          exact Party.touches_append ..
        later := by
          have hnone : Party.later.touches [(.earlier, .remove relpath)] = [] := rfl
          dsimp only
          rw [Party.touches_append, hnone, List.append_nil]
          exact h.later.mono hindex fun _ hlies => hlies.sweep h.closed hvalid }
  | @later store writer touches hwriter =>
      obtain ⟨htouched, hfits, hserial⟩ := hwriter.spec h.later h.closed h.serial
      exact {
        root := htouched.root.trans h.root
        closed := htouched.closed
        serial := hserial
        file := h.file_append htouched .later
        earlier := by
          dsimp only
          rw [Party.touches_append, Party.touches_tagged, if_neg (by decide), List.append_nil]
          exact h.earlier
        later := by
          dsimp only
          rw [Party.touches_append, Party.touches_tagged, if_pos rfl]
          exact hfits }

/-- Any number of steps. -/
theorem sound (hsteps : Relation.ReflTransGen Step r r') (hpends : tx.Pends)
    (h : Sound tx origin r) : Sound tx origin r' := by
  induction hsteps with
  | refl => exact h
  | tail _ hstep ih => exact hstep.sound hpends ih

variable {later : Transaction} {relpath : String} {content : Bytes}

/-- What is read at a relpath that the later writer has set. -/
theorem Sound.read (h : Sound tx origin r) (hdone : r.writer = .done later)
    (hset : later.blobs[relpath]? = some (some content)) (n : UInt64) (writable : Bool) :
    (Site.fresh r.store n writable).getBlob r.store relpath
      = .ok (r.lastly (Store.place relpath)) := by
  have hfits := h.later
  rw [hdone] at hfits
  obtain ⟨htouches, hpublished⟩ := hfits.of_done
  have hmem := mem_staged.2 hset
  rw [(hpublished.lies _ hmem).getBlob h.closed (hpublished.committed _ hmem), h.file]
  unfold lastly
  rw [filesRoot_congr h.root]
  have hput : Touch.put relpath content ∈ Party.later.touches r.log := by
    rw [htouches]
    exact List.mem_append_left _ (List.mem_map.2 ⟨_, hmem, rfl⟩)
  have hlog : Touch.put relpath content ∈ r.log.map (·.2) :=
    (List.filter_sublist.map Prod.snd).mem hput
  exact congrArg _ (Touch.foldl_of_isAt hlog (decide_eq_true rfl) _ _)

end Race

-- ===================================================== two touches of one place

/-- No other relpath that the one transaction deletes or the other one
changes names the place of a relpath. -/
def Sole (tx later : Transaction) (relpath : String) : Prop :=
  ∀ other, other ≠ relpath → tx.blobs[other]? = some none ∨ later.blobs[other]? ≠ none →
    Store.place other ≠ Store.place relpath

section

/-- Writers that change the blob at one relpath only. -/
theorem sole_of_single {tx later : Transaction} {relpath : String} {old new : Option Bytes}
    (htx : tx.blobs = Std.ExtTreeMap.empty.insert relpath old)
    (hlater : later.blobs = Std.ExtTreeMap.empty.insert relpath new) : Sole tx later relpath := by
  intro other hne hother
  have hnone : ∀ content : Option Bytes,
      ((Std.ExtTreeMap.empty : Std.ExtTreeMap String (Option Bytes)).insert relpath content)[other]?
        = none := fun content => by simp [Ne.symm hne]
  rw [htx, hlater, hnone, hnone] at hother
  rcases hother with hother | hother
  · cases hother
  · exact absurd rfl hother

variable {tx later : Transaction} {origin : Store} {r : Race} {relpath : String} {content : Bytes}

theorem nodup_changes (tx : Transaction) : tx.blobs.toList.Nodup :=
  (distinct_toList tx.blobs).imp fun hne heq => hne (congrArg _ heq)

theorem nodup_staged (tx : Transaction) : tx.staged.Nodup := by
  refine (nodup_changes tx).filterMap fun a a' blob ha ha' => ?_
  obtain ⟨c, hc, rfl⟩ := Option.map_eq_some_iff.1 ha
  obtain ⟨c', hc', heq⟩ := Option.map_eq_some_iff.1 ha'
  obtain ⟨hkey, rfl⟩ := Prod.mk.inj heq
  exact Prod.ext hkey.symm (hc.trans hc'.symm)

theorem nodup_removals (tx : Transaction) : tx.removals.Nodup := by
  refine (nodup_changes tx).filterMap fun a a' relpath ha ha' => ?_
  simp only [Option.mem_def, Option.ite_none_right_eq_some, Option.some.injEq,
    Option.isNone_iff_eq_none] at ha ha'
  exact Prod.ext (ha.2.trans ha'.2.symm) (ha.1.trans ha'.1.symm)

/-- A list without repetitions holds what one element alone has once. -/
theorem filter_eq_singleton {α : Type} {l : List α} {f : α → Bool} {a : α} (hnodup : l.Nodup)
    (hmem : a ∈ l) (hf : ∀ b ∈ l, f b = true ↔ b = a) : l.filter f = [a] := by
  refine List.perm_singleton.1 <|
    (List.perm_ext_iff_of_nodup (hnodup.filter f) (List.nodup_singleton a)).2 fun b => ?_
  rw [List.mem_filter, List.mem_singleton]
  exact ⟨fun hb => (hf b hb.1).1 hb.2, fun hb => by rw [hb]; exact ⟨hmem, (hf a hmem).2 rfl⟩⟩

/-- What touches the place of a relpath that only the two writers' own
changes of it name: the file that the later one puts there, -/
theorem filter_touches (hset : later.blobs[relpath]? = some (some content))
    (hsole : Sole tx later relpath) (filesRoot : String) :
    later.touches.filter (Touch.isAt filesRoot (Store.place relpath)) = [.put relpath content] := by
  have hput : later.staged.filter (fun blob => Store.place blob.1 = Store.place relpath)
      = [(relpath, content)] := by
    refine filter_eq_singleton (nodup_staged later) (mem_staged.2 hset) fun blob hmem => ?_
    have hblob := mem_staged.1 hmem
    constructor
    · intro hplace
      have heq : blob.1 = relpath := by
        by_contra hne
        exact hsole blob.1 hne (.inr (by simp [hblob])) (of_decide_eq_true hplace)
      rw [heq, hset] at hblob
      cases hblob
      exact Prod.ext heq rfl
    · intro heq
      rw [heq]
      exact decide_eq_true rfl
  have hremove : later.removals.filter (empties filesRoot (Store.place relpath)) = [] := by
    refine List.filter_eq_nil_iff.2 fun other hmem hempties => ?_
    have hother := mem_removals.1 hmem
    unfold empties at hempties
    simp only [Bool.and_eq_true, decide_eq_true_eq] at hempties
    refine hsole other (fun heq => ?_) (.inr (by simp [hother])) hempties.2
    rw [heq, hset] at hother
    cases hother
  unfold Transaction.touches
  rw [List.filter_append, List.filter_map, List.filter_map]
  show (later.staged.filter fun blob => Store.place blob.1 = Store.place relpath).map _
    ++ (later.removals.filter (empties filesRoot (Store.place relpath))).map _ = _
  rw [hput, hremove]
  rfl

/-- and its removal by the earlier one. -/
theorem filter_removals (hdeleted : tx.blobs[relpath]? = some none)
    (hstands : Stands origin relpath) (hsole : Sole tx later relpath) :
    (tx.removals.map Touch.remove).filter (Touch.isAt origin.filesRoot (Store.place relpath))
      = [.remove relpath] := by
  have hremove :
      tx.removals.filter (empties origin.filesRoot (Store.place relpath)) = [relpath] := by
    refine filter_eq_singleton (nodup_removals tx) (mem_removals.2 hdeleted) fun other hmem => ?_
    unfold empties
    constructor
    · intro hempties
      simp only [Bool.and_eq_true, decide_eq_true_eq] at hempties
      by_contra hne
      exact hsole other hne (.inl (mem_removals.1 hmem)) hempties.2
    · intro heq
      rw [heq, hstands.taken, hstands.file]
      simp
  rw [List.filter_map]
  show (tx.removals.filter (empties origin.filesRoot (Store.place relpath))).map _ = _
  rw [hremove]
  rfl

namespace Race

/-- What one of the two touched at a place. -/
theorem filter_entriesAt (r : Race) (q : Place) (party : Party) :
    (r.entriesAt q).filter (fun entry => entry.1 = party)
      = ((party.touches r.log).filter (Touch.isAt r.store.filesRoot q)).map (party, ·) := by
  unfold entriesAt
  rw [List.filter_comm, Party.filter_eq, List.filter_map]
  rfl

/-- The last of them counts. -/
theorem lastly_of_entriesAt {first last : Party × Touch} {q : Place}
    (h : r.entriesAt q = [first, last]) : r.lastly q = last.2.content? := by
  have hlast : last ∈ r.entriesAt q := by simp [h]
  have hlog : r.lastly q
      = ((r.entriesAt q).map (·.2)).foldl (Touch.leaves r.store.filesRoot q) none := by
    unfold lastly entriesAt
    rw [← Touch.foldl_filter, List.filter_map]
    rfl
  rw [hlog, h]
  exact if_pos (List.mem_filter.1 hlast).2

/-- One touch of each, in either order. -/
theorem pair_of_parties {log : List (Party × Touch)} {a b : Party × Touch}
    (ha : log.filter (fun entry => entry.1 = .later) = [a])
    (hb : log.filter (fun entry => entry.1 = .earlier) = [b]) : log = [a, b] ∨ log = [b, a] := by
  have hother : log.filter (fun entry => !decide (entry.1 = .later))
      = log.filter fun entry => entry.1 = .earlier :=
    List.filter_congr fun entry _ => by cases entry.1 <;> rfl
  have hlen := (List.filter_append_perm (fun entry : Party × Touch => entry.1 = .later)
    log).length_eq
  rw [hother, ha, hb] at hlen
  obtain ⟨x, y, rfl⟩ := List.length_eq_two.1 hlen.symm
  cases hx : x.1 <;> cases hy : y.1 <;> simp [hx, hy] at ha hb
  · exact .inr (by rw [ha, hb])
  · exact .inl (by rw [ha, hb])

/-- Where both writers touch a place by one relpath only, that is once
each. -/
theorem Sound.entriesAt_eq (h : Sound tx origin r) (hover : r.overdue = [])
    (hdone : r.writer = .done later) (hdeleted : tx.blobs[relpath]? = some none)
    (hset : later.blobs[relpath]? = some (some content)) (hsole : Sole tx later relpath) :
    r.entriesAt (Store.place relpath)
        = [(.later, .put relpath content), (.earlier, .remove relpath)]
      ∨ r.entriesAt (Store.place relpath)
        = [(.earlier, .remove relpath), (.later, .put relpath content)] := by
  have hfits := h.later
  rw [hdone] at hfits
  obtain ⟨htouches, hpublished⟩ := hfits.of_done
  obtain ⟨removed, hall, hremoved⟩ := h.earlier
  rw [hover, List.append_nil] at hall
  have hstands : Stands r.store relpath := (hpublished.lies _ (mem_staged.2 hset)).toStands
  refine pair_of_parties ?_ ?_
  · rw [filter_entriesAt, htouches, filter_touches hset hsole]
    rfl
  · rw [filter_entriesAt, hremoved, ← hall, filter_removals hdeleted hstands hsole]
    rfl

/-- So the file is lost if it was put there before the removal. -/
theorem Sound.lastly_iff (h : Sound tx origin r) (hover : r.overdue = [])
    (hdone : r.writer = .done later) (hdeleted : tx.blobs[relpath]? = some none)
    (hset : later.blobs[relpath]? = some (some content)) (hsole : Sole tx later relpath) :
    r.lastly (Store.place relpath) = some content
      ↔ ¬[(.later, .put relpath content), (.earlier, .remove relpath)].Sublist r.log := by
  rcases h.entriesAt_eq hover hdone hdeleted hset hsole with heq | heq
  · refine iff_of_false ?_ (not_not.2 ?_)
    · rw [lastly_of_entriesAt heq]
      exact nofun
    · rw [← heq]
      exact List.filter_sublist
  · refine iff_of_true (lastly_of_entriesAt heq) fun hsub => ?_
    have hhere : List.Sublist _ (r.entriesAt (Store.place relpath)) := hsub.filter _
    -- both are entries of the place, so the filter keeps them
    rw [List.filter_eq_self.2, heq] at hhere
    · cases hhere.eq_of_length rfl
    · intro entry hmem
      have hentry : entry ∈ r.entriesAt (Store.place relpath) := by
        simpa [heq, or_comm] using hmem
      exact (List.mem_filter.1 hentry).2

end Race

namespace Site

variable {s : Site} {who : Nat} {store : Store}

/-- A race begins where a transaction of a site has published. -/
theorem sound_of_publish {root cwd : String} {events : List Event} {n : UInt64}
    (h : Steps (empty root cwd) events s) (hopen : s.opened who = some tx)
    (hpublish : tx.publish s.store = (store, .ok n)) :
    tx.Pends ∧ Race.Sound tx store { store, overdue := tx.removals } := by
  have hsane := h.sane (sane_empty root cwd)
  have hshelved := h.shelved (sane_empty root cwd) (shelved_empty root cwd)
  have hfit := hsane.fit who tx hopen
  have hpends := hshelved.pends who tx hopen
  have hsound : store.files.Closed → (∃ n : UInt64, store.index.serial = some (toString n)) →
      Race.Sound tx store { store, overdue := tx.removals } := fun hclosed hserial =>
    ⟨rfl, hclosed, hserial, fun _ => rfl, ⟨[], rfl, rfl⟩, .waiting⟩
  refine ⟨hpends, ?_⟩
  obtain ⟨view, hview⟩ := Option.isSome_iff_exists.1 hfit.live
  rcases publish_cases hview s.store with
    ⟨hchanges, heq⟩ | ⟨hchanges, after, e, hrefused, heq⟩ | ⟨hchanges, after, hplaced, heq⟩
  · rw [heq] at hpublish
    cases hpublish
    exact hsound hshelved.closed hsane.serial
  · rw [heq] at hpublish
    cases hpublish
  · have hwrites : tx.writable = true := by
      cases hw : tx.writable with
      | true => rfl
      | false => exact absurd (hfit.clean hw) (by simp [hchanges])
    obtain rfl : view = s.store.index :=
      Option.some.inj (hview.symm.trans (hfit.current hwrites).1)
    rw [heq] at hpublish
    cases hpublish
    exact hsound ((hplaced.laid hpends).1.closed hshelved.closed)
      ⟨_, hfit.landed_serial hwrites after⟩

/-- While a writer that has published removes files, another one may begin
and commit. What is then read at a relpath that the later one has set is
what the last touch of its place has left there. Where both writers touch
it by that relpath only, of which the earlier one has deleted the blob, the
blob of the later one is read unless it was put there before the removal. -/
theorem overtaken_iff {root cwd : String} {events : List Event} {n : UInt64} {race : Race}
    (h : Steps (empty root cwd) events s) (hopen : s.opened who = some tx)
    (hpublish : tx.publish s.store = (store, .ok n))
    (hrace : Relation.ReflTransGen Race.Step { store, overdue := tx.removals } race)
    (hover : race.overdue = []) (hdone : race.writer = .done later)
    (hset : later.blobs[relpath]? = some (some content)) :
    ∀ writable, ∃ reader, start race.store writable = .ok reader
      ∧ reader.getBlob race.store relpath = .ok (race.lastly (Store.place relpath))
      ∧ (tx.blobs[relpath]? = some none → Sole tx later relpath →
          (reader.getBlob race.store relpath = .ok (some content)
            ↔ ¬[(.later, .put relpath content), (.earlier, .remove relpath)].Sublist
                race.log)) := by
  obtain ⟨hpends, hbegins⟩ := sound_of_publish h hopen hpublish
  have hsound := Race.sound hrace hpends hbegins
  obtain ⟨m, hserial⟩ := hsound.serial
  intro writable
  have hread := hsound.read hdone hset m writable
  refine ⟨fresh race.store m writable, start_eq hserial writable, hread, fun hdeleted hsole => ?_⟩
  rw [hread, ← hsound.lastly_iff hover hdone hdeleted hset hsole]
  exact ⟨fun heq => Except.ok.inj heq, fun heq => congrArg _ heq⟩

set_option maxRecDepth 20000 in
/-- One writer deletes a blob; before it has removed the file, another one
sets the blob again and commits. The file that is then removed is the new
one. -/
theorem overtaken_loses : ∃ events s tx store race later reader,
    (empty "depot" "/").run
      [(0, .begin true), (0, .edit (.setBlob "a/x" [1])), (0, .commit), (0, .begin true),
        (0, .edit (.deleteBlob "a/x"))] = some (events, s)
    ∧ s.opened 0 = some tx ∧ tx.publish s.store = (store, .ok 2)
    ∧ Relation.ReflTransGen Race.Step { store, overdue := tx.removals } race
    ∧ race.overdue = [] ∧ race.writer = .done later
    ∧ later.blobs["a/x"]? = some (some [2]) ∧ Sole tx later "a/x"
    ∧ [(.later, .put "a/x" [2]), (.earlier, .remove "a/x")].Sublist race.log
    ∧ Transaction.start race.store false = .ok reader
    ∧ reader.getBlob race.store "a/x" = .ok none := by
  have hrun : (empty "depot" "/").run
      [(0, .begin true), (0, .edit (.setBlob "a/x" [1])), (0, .commit), (0, .begin true),
        (0, .edit (.deleteBlob "a/x"))] = some (_, _) := rfl
  have hrace := fun (race : Race) (later : Transaction) hrace hover hdone hset =>
    And.intro hrace <| @overtaken_iff _ later "a/x" [2] _ 0 _ _ _ _ 2 race (steps_of_run hrun)
      rfl rfl hrace hover hdone hset
  obtain ⟨hrace, hread⟩ := hrace _ _
    (.head (.later (.begin rfl)) <| .head (.later (.edit (e := .setBlob "a/x" [2]) rfl)) <|
      .head (.later (.commit rfl)) <| .head (.later (.stage rfl)) <| .head (.later .staged) <|
      .head (.later (.move rfl)) <| .head (.later .publish) <| .head (.later .swept) <|
      .head (.earlier rfl) .refl)
    rfl rfl rfl
  obtain ⟨reader, hstart, hread, hkept⟩ := hread false
  have hkept := hkept rfl (sole_of_single rfl rfl)
  have hlost := Classical.not_not.1 fun hlater => nomatch hread.symm.trans (hkept.2 hlater)
  exact ⟨_, _, _, _, _, _, reader, hrun, rfl, rfl, hrace, rfl, rfl, rfl, sole_of_single rfl rfl,
    hlost, hstart, hread⟩

end Site

end

end Depot
