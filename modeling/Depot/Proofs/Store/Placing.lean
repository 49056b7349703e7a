/-
What committing does to the files. Relpaths that name the same place are
the same file, whatever their text. Staging makes every place above the
place of a blob a directory (`node?_stageAll`); moving puts the blobs one
after the other into their places, and stops at the first that is
refused (`moveAll_spec`); sweeping empties the places of deleted blobs
(`node?_sweep`). No directory is ever lost.
-/
import Depot.Proofs.Store.Commit
import Depot.Proofs.Files.Change
import Depot.Proofs.Relpath

namespace Depot

open Files Files.Tree

/-- The place that a relpath names. -/
def Store.place (relpath : String) : Place := names (Store.pieces relpath)

namespace Relpath

/-- A valid relpath has no step upwards. -/
theorem up_not_mem {relpath : String} (h : isValid relpath = true) :
    ".." ∉ Store.pieces relpath :=
  (isValid_iff.1 h).2.2.2.1

end Relpath

namespace Transaction

theorem names_reverse (pieces : List String) : names pieces.reverse = (names pieces).reverse :=
  List.filter_reverse

/-- Idle pieces at the front say nothing. -/
theorem names_dropWhile (pieces : List String) :
    names (pieces.dropWhile Path.isIdle) = names pieces := by
  induction pieces with
  | nil => rfl
  | cons piece rest ih =>
      cases hidle : Path.isIdle piece with
      | true =>
          rw [List.dropWhile_cons_of_pos hidle, ih, ← List.singleton_append (l := rest),
            names_append, names_idle hidle, List.nil_append]
      | false => rw [List.dropWhile_cons_of_neg (by simp [hidle])]

/-- The directory of a relpath is the place above its place. -/
theorem names_parentPieces (relpath : String) :
    names (parentPieces relpath) = (Store.place relpath).dropLast := by
  have hplace : Store.place relpath = (names (Path.namesBackwards relpath)).reverse := by
    unfold Store.place Store.pieces Path.namesBackwards
    rw [names_dropWhile, names_reverse, List.reverse_reverse]
  unfold parentPieces
  rw [hplace, names_reverse, names_dropWhile]
  cases hback : Path.namesBackwards relpath with
  | nil => rfl
  | cons name above =>
      have hname : Path.isIdle name = false := by
        have hhead := List.head?_dropWhile_not Path.isIdle (Text.split '/' relpath).reverse
        unfold Path.namesBackwards at hback
        rw [hback] at hhead
        simpa using hhead
      rw [List.tail_cons, ← List.singleton_append, names_append, names_singleton hname,
        List.reverse_append, List.reverse_singleton, List.dropLast_concat]

/-- Its pieces are some of those of the relpath. -/
theorem mem_of_mem_parentPieces {relpath piece : String} (h : piece ∈ parentPieces relpath) :
    piece ∈ Store.pieces relpath := by
  unfold parentPieces Path.namesBackwards at h
  have hdropped := (List.dropWhile_sublist _).mem (List.mem_reverse.1 h)
  have hbackwards := (List.dropWhile_sublist _).mem (List.mem_of_mem_tail hdropped)
  exact List.mem_reverse.1 hbackwards

/-- So it has no step upwards either. -/
theorem up_not_mem_parentPieces {relpath : String} (h : Relpath.isValid relpath = true) :
    ".." ∉ parentPieces relpath :=
  fun hmem => Relpath.up_not_mem h (mem_of_mem_parentPieces hmem)

-- ===================================================== staging

/-- Whether a place is above the place of one of the blobs. -/
def isAbove (blobs : List (String × Bytes)) (q : Place) : Bool :=
  blobs.any fun blob => decide (q <+: (Store.place blob.1).dropLast)

variable {blobs : List (String × Bytes)} {store after : Store}

/-- Whatever lies above the place of a blob. -/
theorem isAbove_of_mem {blob : String × Bytes} (h : blob ∈ blobs) {q : Place}
    (hq : q <+: (Store.place blob.1).dropLast) : isAbove blobs q = true :=
  List.any_eq_true.2 ⟨blob, h, decide_eq_true hq⟩

/-- Staging a blob makes directories above it and nothing else. -/
theorem Stages.grown {relpath : String} {answer : Except StoreError Unit}
    (h : Stages store relpath after answer) (hvalid : Relpath.isValid relpath = true) :
    Grown store.files after.files (· <+: (Store.place relpath).dropLast) := by
  have hgrown := grown_makeDirs store.files (up_not_mem_parentPieces hvalid)
  rw [names_parentPieces] at hgrown
  cases h with
  | refused hdir => exact .refl _ _
  | unmade hdir hmake =>
      rw [hmake] at hgrown
      exact hgrown
  | cramped hdir hmake hscratch =>
      rw [hmake] at hgrown
      exact hgrown
  | made hdir hmake hscratch =>
      rw [hmake] at hgrown
      exact hgrown

/-- So does staging blobs. -/
theorem stageAll_grown (hvalid : ∀ blob ∈ blobs, Relpath.isValid blob.1 = true) (store : Store) :
    Grown store.files (stageAll store blobs).1.files (isAbove blobs · = true) :=
  inTurn_rel (R := fun a b => Grown a.files b.files (isAbove blobs · = true))
    (fun store => .refl store.files _) Grown.trans
    (fun blob hblob store => ((stages store blob).grown (hvalid blob hblob)).mono
      fun _ => isAbove_of_mem hblob) store

/-- What is where once a blob is staged. -/
theorem Stages.node? {relpath : String} (h : Stages store relpath after (.ok ()))
    (hvalid : Relpath.isValid relpath = true) (q : Place) :
    after.files.node? q
      = if q <+: (Store.place relpath).dropLast then some .dir else store.files.node? q := by
  cases h with
  | made hdir hmake hscratch =>
      rw [← names_parentPieces]
      exact node?_makeDirs (up_not_mem_parentPieces hvalid) hmake q

/-- What is where once all blobs are staged. -/
theorem node?_stageAll (hvalid : ∀ blob ∈ blobs, Relpath.isValid blob.1 = true)
    (h : stageAll store blobs = (after, .ok ())) (q : Place) :
    after.files.node? q = if isAbove blobs q = true then some .dir else store.files.node? q := by
  induction blobs generalizing store with
  | nil =>
      cases h
      rfl
  | cons blob blobs ih =>
      obtain ⟨between, hone, hrest⟩ := inTurn_ok h
      have hfirst := stages store blob
      rw [hone] at hfirst
      rw [ih (fun blob hmem => hvalid blob (List.mem_cons_of_mem _ hmem)) hrest,
        hfirst.node? (hvalid blob (List.mem_cons_self ..))]
      unfold isAbove
      rw [List.any_cons]
      by_cases hq : q <+: (Store.place blob.1).dropLast
      · simp [hq]
      · rw [if_neg hq, decide_eq_false hq, Bool.false_or]

-- ===================================================== moving

/-- What is at a place, in place of what was there, once a blob is moved. -/
def shelve (q : Place) (node : Option Node) (blob : String × Bytes) : Option Node :=
  if Store.place blob.1 = q then some (.file blob.2) else node

/-- A relpath at whose place a file can lie. -/
structure Stands (store : Store) (relpath : String) : Prop where
  valid : Relpath.isValid relpath = true
  taken : refusal? (Path.join store.filesRoot relpath) = none
  file : isFilePath (Store.pieces relpath) = true
  short : EndsShort (Store.pieces relpath)
  dir : store.files.node? (Store.place relpath).dropLast = some .dir

/-- Directories are not lost. -/
def KeepsDirs (t t' : Tree) : Prop := ∀ q, t.node? q = some .dir → t'.node? q = some .dir

theorem KeepsDirs.refl (t : Tree) : KeepsDirs t t := fun _ h => h

theorem KeepsDirs.trans {t t' t'' : Tree} (h : KeepsDirs t t') (h' : KeepsDirs t' t'') :
    KeepsDirs t t'' := fun q hq => h' q (h q hq)

theorem filesRoot_congr (hroot : after.root = store.root) : after.filesRoot = store.filesRoot := by
  unfold Store.filesRoot
  rw [hroot]

theorem scratchPath_congr (hroot : after.root = store.root) (hcwd : after.cwd = store.cwd)
    (relpath : String) : after.scratchPath relpath = store.scratchPath relpath := by
  unfold Store.scratchPath Store.besidePath
  rw [filesRoot_congr hroot, hcwd]

theorem Stands.mono {relpath : String} (h : Stands store relpath) (hroot : after.root = store.root)
    (hdirs : KeepsDirs store.files after.files) : Stands after relpath :=
  ⟨h.valid, by rw [filesRoot_congr hroot]; exact h.taken, h.file, h.short, hdirs _ h.dir⟩

/-- What moving blobs comes to: those before the first that is refused, or
all of them, are put in their places, which no directory is. -/
structure Moved (store after : Store) (moved : List (String × Bytes)) : Prop where
  node : ∀ q, after.files.node? q = moved.foldl (shelve q) (store.files.node? q)
  dirs : KeepsDirs store.files after.files
  closed : store.files.Closed → after.files.Closed
  stands : ∀ blob ∈ moved, Stands after blob.1

/-- Nothing is moved. -/
theorem Moved.refl (store : Store) : Moved store store [] where
  node _ := rfl
  dirs := .refl _
  closed := id
  stands _ hmem := absurd hmem List.not_mem_nil

/-- Moving one blob. -/
theorem moved_one {relpath : String} {content : Bytes} {files : Tree}
    (hvalid : Relpath.isValid relpath = true)
    (h : reach (Path.join store.filesRoot relpath)
      (store.files.moveInto (Store.pieces relpath) content) = .ok files) :
    Moved store { store with files } [(relpath, content)] := by
  unfold reach at h
  split at h
  · cases h
  · next htaken =>
    have hup := Relpath.up_not_mem hvalid
    have hclosed := moveInto_closed hup h
    obtain ⟨hfile, hshort, hdir, hnode, rfl⟩ := moveInto_ok hup h
    have hput := node?_put (t := store.files) (names_ne_nil hfile) content
    have hdirs : KeepsDirs store.files (store.files.put (Store.place relpath) content) := by
      intro q hq
      have hne : q ≠ names (Store.pieces relpath) := by
        intro heq
        subst heq
        exact hnode hq
      exact (hput q).trans ((if_neg hne).trans hq)
    refine ⟨fun q => ?_, hdirs, hclosed, ?_⟩
    · rw [List.foldl_cons, List.foldl_nil]
      unfold shelve Store.place
      rw [hput]
      by_cases hq : q = names (Store.pieces relpath)
      · rw [if_pos hq, if_pos hq.symm]
      · rw [if_neg hq, if_neg (Ne.symm hq)]
    · intro blob hmem
      obtain rfl := List.mem_singleton.1 hmem
      exact ⟨hvalid, htaken, hfile, hshort, hdirs _ hdir⟩

/-- Moving some blobs and then others. -/
theorem Moved.append {between : Store} {a b : List (String × Bytes)} {files : Tree}
    (h : Moved store between a) (h' : Moved between { between with files } b) :
    Moved store { between with files } (a ++ b) where
  node q := by rw [h'.node, h.node, List.foldl_append]
  dirs := h.dirs.trans h'.dirs
  closed hclosed := h'.closed (h.closed hclosed)
  stands blob hmem := (List.mem_append.1 hmem).elim
    (fun hmem => (h.stands blob hmem).mono rfl h'.dirs) (h'.stands blob)

/-- Those of a list for which something is done before it fails for one. -/
def doneInTurn {α : Type} (act : Store → α → Store × Except StoreError Unit) (store : Store) :
    List α → List α
  | [] => []
  | x :: rest =>
      match act store x with
      | (store, .ok ()) => x :: doneInTurn act store rest
      | (_, .error _) => []

/-- The blobs that are moved before one is refused. -/
def moving (store : Store) (blobs : List (String × Bytes)) : List (String × Bytes) :=
  doneInTurn move store blobs

/-- Blobs are moved up to the first that is refused. -/
theorem moveAll_spec (hvalid : ∀ blob ∈ blobs, Relpath.isValid blob.1 = true) (store : Store) :
    Moved store (moveAll store blobs).1 (moving store blobs)
      ∧ moving store blobs <+: blobs
      ∧ ((moveAll store blobs).2 = .ok () ↔ moving store blobs = blobs) := by
  induction blobs generalizing store with
  | nil => exact ⟨.refl store, List.prefix_refl _, iff_of_true rfl rfl⟩
  | cons blob blobs ih =>
      unfold moveAll moving at ih ⊢
      rw [inTurn, doneInTurn]
      rcases move_cases store blob with ⟨files, hreach, hmove⟩ | ⟨cause, -, hmove⟩
      · have hfirst := moved_one (hvalid _ (List.mem_cons_self ..)) hreach
        obtain ⟨hmoved, hprefix, hall⟩ :=
          ih (fun blob hmem => hvalid blob (List.mem_cons_of_mem _ hmem)) { store with files }
        have hframe := moveAll_eq (Prod.eta (moveAll { store with files } blobs)).symm
        unfold moveAll at hframe
        rw [hframe] at hmoved
        rw [hmove]
        dsimp only
        rw [hframe]
        refine ⟨hfirst.append hmoved, List.cons_prefix_cons.2 ⟨rfl, hprefix⟩, hall.trans ?_⟩
        exact ⟨fun heq => by rw [heq], fun heq => (List.cons.inj heq).2⟩
      · rw [hmove]
        refine ⟨.refl store, List.nil_prefix, ?_⟩
        dsimp only
        constructor
        · intro heq
          cases heq
        · intro heq
          cases heq

-- ===================================================== sweeping

/-- Whether sweeping for a relpath empties a place with a file. -/
def empties (filesRoot : String) (q : Place) (relpath : String) : Bool :=
  (refusal? (Path.join filesRoot relpath)).isNone && isFilePath (Store.pieces relpath)
    && decide (Store.place relpath = q)

/-- What is left of a file. -/
def swept (emptied : Bool) : Option Node → Option Node
  | some (.file content) => if emptied then none else some (.file content)
  | node => node

theorem swept_swept (a b : Bool) (node : Option Node) :
    swept a (swept b node) = swept (b || a) node := by
  cases node with
  | none => rfl
  | some node => cases node with
    | dir => rfl
    | file content => cases a <;> cases b <;> rfl

/-- The store with the file of one relpath removed, if it is reached. -/
def sweepOne (store : Store) (relpath : String) : Store :=
  if (refusal? (Path.join store.filesRoot relpath)).isNone then
    { store with files := store.files.removeFile (Store.pieces relpath) }
  else store

theorem sweep_cons (store : Store) (relpath : String) (rest : List String) :
    sweep store (relpath :: rest) = sweep (sweepOne store relpath) rest := by
  unfold sweepOne sweep
  dsimp only
  rw [List.filter_cons]
  split <;> rfl

theorem sweepOne_root (store : Store) (relpath : String) :
    (sweepOne store relpath).filesRoot = store.filesRoot := by
  unfold sweepOne
  split <;> rfl

theorem sweepOne_closed {relpath : String} (hclosed : store.files.Closed)
    (hvalid : Relpath.isValid relpath = true) : (sweepOne store relpath).files.Closed := by
  unfold sweepOne
  split
  · exact removeFile_closed hclosed (Relpath.up_not_mem hvalid)
  · exact hclosed

theorem node?_sweepOne {relpath : String} (hclosed : store.files.Closed)
    (hvalid : Relpath.isValid relpath = true) (q : Place) :
    (sweepOne store relpath).files.node? q
      = swept (empties store.filesRoot q relpath) (store.files.node? q) := by
  unfold sweepOne empties Store.place
  split
  · next htaken =>
    dsimp only
    rw [htaken, node?_removeFile hclosed (Relpath.up_not_mem hvalid), Bool.true_and]
    unfold file? swept
    cases hnode : store.files.node? q with
    | none => simp
    | some node =>
        cases node with
        | dir => simp
        | file content =>
            simp only [Option.isSome_some, and_true, Bool.and_eq_true, decide_eq_true_eq,
              @eq_comm _ q]
  · next htaken =>
    rw [Bool.not_eq_true] at htaken
    rw [htaken]
    unfold swept
    cases store.files.node? q with
    | none => rfl
    | some node => cases node <;> rfl

/-- What is where after a sweep. -/
theorem node?_sweep {relpaths : List String} (hclosed : store.files.Closed)
    (hvalid : ∀ relpath ∈ relpaths, Relpath.isValid relpath = true) (q : Place) :
    (sweep store relpaths).files.node? q
      = swept (relpaths.any (empties store.filesRoot q)) (store.files.node? q) := by
  induction relpaths generalizing store with
  | nil =>
      rw [sweep_nil, List.any_nil]
      unfold swept
      cases store.files.node? q with
      | none => rfl
      | some node => cases node <;> rfl
  | cons relpath rest ih =>
      have hfirst := hvalid relpath (List.mem_cons_self ..)
      rw [sweep_cons, ih (sweepOne_closed hclosed hfirst)
          fun r hr => hvalid r (List.mem_cons_of_mem _ hr),
        node?_sweepOne hclosed hfirst, swept_swept, sweepOne_root, List.any_cons]

theorem sweep_closed {relpaths : List String} (hclosed : store.files.Closed)
    (hvalid : ∀ relpath ∈ relpaths, Relpath.isValid relpath = true) :
    (sweep store relpaths).files.Closed := by
  induction relpaths generalizing store with
  | nil => exact hclosed
  | cons relpath rest ih =>
      rw [sweep_cons]
      exact ih (sweepOne_closed hclosed (hvalid relpath (List.mem_cons_self ..)))
        fun r hr => hvalid r (List.mem_cons_of_mem _ hr)

/-- A sweep removes no directory. -/
theorem sweep_dirs {relpaths : List String} (hclosed : store.files.Closed)
    (hvalid : ∀ relpath ∈ relpaths, Relpath.isValid relpath = true) :
    KeepsDirs store.files (sweep store relpaths).files := by
  intro q hq
  rw [node?_sweep hclosed hvalid, hq]
  rfl

-- ===================================================== whole commits

/-- The relpaths of pending blobs name files. -/
def Pends (tx : Transaction) : Prop :=
  ∀ relpath content, tx.blobs[relpath]? = some content → Relpath.isValid relpath = true

variable {tx : Transaction}

theorem mem_staged {relpath : String} {content : Bytes} :
    (relpath, content) ∈ tx.staged ↔ tx.blobs[relpath]? = some (some content) := by
  unfold staged
  rw [List.mem_filterMap, ← Std.ExtTreeMap.mem_toList_iff_getElem?_eq_some]
  constructor
  · intro h
    obtain ⟨⟨r, pending⟩, hmem, heq⟩ := h
    obtain ⟨c, rfl, hc⟩ := Option.map_eq_some_iff.1 heq
    cases hc
    exact hmem
  · intro hmem
    exact ⟨_, hmem, rfl⟩

theorem mem_removals {relpath : String} :
    relpath ∈ tx.removals ↔ tx.blobs[relpath]? = some none := by
  unfold removals
  rw [List.mem_filterMap, ← Std.ExtTreeMap.mem_toList_iff_getElem?_eq_some]
  constructor
  · intro h
    obtain ⟨⟨r, pending⟩, hmem, heq⟩ := h
    cases pending with
    | none => cases heq; exact hmem
    | some c => cases heq
  · intro hmem
    exact ⟨_, hmem, rfl⟩

theorem Pends.staged (h : tx.Pends) : ∀ blob ∈ tx.staged, Relpath.isValid blob.1 = true :=
  fun _ hmem => h _ _ (mem_staged.1 hmem)

theorem Pends.removals (h : tx.Pends) : ∀ relpath ∈ tx.removals, Relpath.isValid relpath = true :=
  fun _ hmem => h _ _ (mem_removals.1 hmem)

/-- What a commit leaves at a place where `node` was. -/
def leaves (tx : Transaction) (filesRoot : String) (q : Place) (node : Option Node) : Option Node :=
  swept (tx.removals.any (empties filesRoot q))
    (tx.staged.foldl (shelve q) (if isAbove tx.staged q then some .dir else node))

/-- The blobs that a commit moves: all, unless one is refused. -/
def laid (tx : Transaction) (store : Store) : List (String × Bytes) :=
  match stageAll store tx.staged with
  | (ready, .ok ()) => moving ready tx.staged
  | (_, .error _) => []

/-- Whether a commit makes a directory where nothing was. -/
def makes (tx : Transaction) (store : Store) (q : Place) : Bool :=
  decide (store.files.node? q = none ∧ (stageAll store tx.staged).1.files.node? q = some .dir)

/-- What is where once a commit has moved what it moves, before it sweeps. -/
def laidAt (tx : Transaction) (store : Store) (q : Place) : Option Node :=
  (tx.laid store).foldl (shelve q) (if tx.makes store q then some .dir else store.files.node? q)

/-- Staging makes the directories that it is said to make. -/
theorem node?_staged (hpends : tx.Pends) (store : Store) (q : Place) :
    (stageAll store tx.staged).1.files.node? q
      = if tx.makes store q then some .dir else store.files.node? q := by
  unfold makes
  rcases (stageAll_grown hpends.staged store).node q with heq | ⟨hnone, hdir, -⟩
  · rw [heq, if_neg]
    intro h
    obtain ⟨hnone, hdir⟩ := of_decide_eq_true h
    rw [hnone] at hdir
    cases hdir
  · rw [if_pos (decide_eq_true ⟨hnone, hdir⟩), hdir]

/-- Such a directory is above one of the blobs. -/
theorem makes_spec (hpends : tx.Pends) {q : Place} (h : tx.makes store q = true) :
    store.files.node? q = none ∧ isAbove tx.staged q = true := by
  obtain ⟨hnone, hdir⟩ := of_decide_eq_true h
  rcases (stageAll_grown hpends.staged store).node q with heq | ⟨-, -, habove⟩
  · rw [heq, hnone] at hdir
    cases hdir
  · exact ⟨hnone, habove⟩

/-- The files once blobs are moved, which may be all or not. -/
structure Laid (tx : Transaction) (store after : Store) : Prop where
  node : ∀ q, after.files.node? q = tx.laidAt store q
  dirs : KeepsDirs store.files after.files
  closed : store.files.Closed → after.files.Closed
  stands : ∀ blob ∈ tx.laid store, Stands after blob.1

/-- A commit that moves some blobs, from where it has staged them. -/
theorem laid_of_moveAll {ready : Store} {result : Except StoreError Unit} (hpends : tx.Pends)
    (hstage : stageAll store tx.staged = (ready, .ok ()))
    (hmove : moveAll ready tx.staged = (after, result)) :
    tx.Laid store after ∧ tx.laid store <+: tx.staged
      ∧ (result = .ok () ↔ tx.laid store = tx.staged) := by
  have hgrown := stageAll_grown hpends.staged store
  have hstaged := node?_staged hpends store
  obtain ⟨hmoved, hprefix, hall⟩ := moveAll_spec hpends.staged ready
  have hlaid : tx.laid store = moving ready tx.staged := by
    unfold laid
    rw [hstage]
  rw [hstage] at hgrown hstaged
  rw [hmove] at hmoved hall
  refine ⟨⟨fun q => ?_, KeepsDirs.trans (fun q => hgrown.dir) hmoved.dirs,
    fun hclosed => hmoved.closed (hgrown.closed hclosed), ?_⟩, ?_, ?_⟩
  · unfold laidAt
    rw [hmoved.node, hlaid, ← hstaged]
  · rw [hlaid]
    exact hmoved.stands
  · rw [hlaid]
    exact hprefix
  · rw [hlaid]
    exact hall

/-- A commit that is not refused moves all its blobs. -/
theorem Placed.laid (h : tx.Placed store after) (hpends : tx.Pends) :
    tx.Laid store after ∧ tx.laid store = tx.staged := by
  obtain ⟨ready, hstage, hmove⟩ := h
  obtain ⟨hlaid, -, hall⟩ := laid_of_moveAll hpends hstage hmove
  exact ⟨hlaid, hall.1 rfl⟩

/-- A commit that is refused does not. -/
theorem Refused.laid {e : StoreError} (h : tx.Refused store after e) (hpends : tx.Pends) :
    tx.Laid store after ∧ tx.laid store <+: tx.staged ∧ tx.laid store ≠ tx.staged := by
  rcases h with hstage | ⟨ready, hstage, hmove⟩
  · have hgrown := stageAll_grown hpends.staged store
    have hstaged := node?_staged hpends store
    have hnil : tx.laid store = [] := by
      unfold Transaction.laid
      rw [hstage]
    rw [hstage] at hgrown hstaged
    refine ⟨⟨fun q => ?_, fun q => hgrown.dir, hgrown.closed, ?_⟩, ?_, ?_⟩
    · unfold laidAt
      rw [hnil]
      exact hstaged q
    · rw [hnil]
      exact nofun
    · rw [hnil]
      exact List.nil_prefix
    · rw [hnil]
      intro heq
      rw [← heq] at hstage
      cases hstage
  · obtain ⟨hlaid, hprefix, hall⟩ := laid_of_moveAll hpends hstage hmove
    exact ⟨hlaid, hprefix, fun heq => nomatch hall.2 heq⟩

/-- What lies where once all blobs are placed. -/
theorem Placed.node (h : tx.Placed store after) (hpends : tx.Pends) (q : Place) :
    after.files.node? q = tx.staged.foldl (shelve q)
      (if isAbove tx.staged q then some .dir else store.files.node? q) := by
  obtain ⟨hlaid, hall⟩ := h.laid hpends
  obtain ⟨ready, hstage, -⟩ := h
  have hstaged := node?_staged hpends store q
  rw [hlaid.node]
  unfold laidAt
  rw [hall, ← hstaged, hstage, ← node?_stageAll hpends.staged hstage]

end Transaction

end Depot
