/-
When there is room for blobs. The operating system makes directories along
names that are not too long, unless a file is in the way, and moves a file
to where no directory is. So the commit of a transaction puts its blobs in
their places just if the disk admits each of them and none is to lie above
another (`placed_iff`).
-/
import Depot.Proofs.Store.Refusals
import Depot.Proofs.Store.Publishing

namespace Depot

open Files Files.Tree Text

-- ===================================================== making and moving

namespace Files.Tree

variable {t t' : Tree} {place : Place} {pieces : List String}

/-- A name that says nothing is never too long. -/
theorem isTooLong_of_idle {piece : String} (h : Path.isIdle piece = true) :
    isTooLong piece = false := by
  unfold Path.isIdle at h
  simp only [Bool.or_eq_true, decide_eq_true_eq] at h
  rcases h with rfl | rfl <;> decide

/-- No file lies at a place, or at those that are passed from there on along
names. -/
def Passes (t : Tree) (place : Place) (along : List String) : Prop :=
  ∀ q, Along place along q → ∀ content, t.node? q ≠ some (.file content)

theorem passes_nil (hdir : t.node? place = some .dir) : Passes t place [] := by
  intro q hq content
  rw [along_nil.1 hq, hdir]
  simp

theorem passes_cons {name : String} {rest : List String} (hdir : t.node? place = some .dir) :
    Passes t place (name :: rest) ↔ Passes t (place ++ [name]) rest := by
  constructor
  · intro h q hq
    exact h q (along_cons.2 (.inr hq))
  · intro h q hq
    rcases along_cons.1 hq with rfl | hq
    · intro content
      simp [hdir]
    · exact h q hq

/-- Where there are the same files, there are the same ways. -/
theorem Passes.congr {along : List String}
    (h : ∀ q content, t'.node? q = some (.file content) ↔ t.node? q = some (.file content)) :
    Passes t' place along ↔ Passes t place along := by
  unfold Passes
  simp only [ne_eq, h]

/-- From a file nothing is made. -/
theorem makeDirsFrom_of_file {content : Bytes} (hfile : t.node? place = some (.file content))
    {piece : String} (rest : List String) :
    (t.makeDirsFrom place (piece :: rest)).2 = .error .notDirectory := by
  have hstep : t.step place piece = .error .notDirectory := by
    unfold step
    rw [if_pos (by simp [hfile])]
  unfold makeDirsFrom makeStep
  dsimp only
  rw [hstep]

/-- Directories are made along names that are not too long, just if these
pass no file. -/
theorem makeDirsFrom_isOk_iff (hup : ".." ∉ pieces) (hdir : t.node? place = some .dir) :
    (t.makeDirsFrom place pieces).2.isOk = true
      ↔ (∀ piece ∈ pieces, isTooLong piece = false) ∧ Passes t place (names pieces) := by
  induction pieces generalizing t place with
  | nil => exact iff_of_true rfl ⟨nofun, passes_nil hdir⟩
  | cons piece rest ih =>
      have hpiece : piece ≠ ".." := fun heq => hup (by simp [heq])
      have hrest : ".." ∉ rest := fun hmem => hup (by simp [hmem])
      rw [List.forall_mem_cons]
      cases hidle : Path.isIdle piece with
      | true =>
          have hnames : names (piece :: rest) = names rest := by
            rw [← List.singleton_append, names_append, names_idle hidle, List.nil_append]
          rw [hnames, isTooLong_of_idle hidle]
          unfold makeDirsFrom makeStep
          dsimp only
          rw [step_idle hdir hidle]
          dsimp only
          rw [if_neg (by simp [hdir])]
          dsimp only
          rw [ih hrest hdir]
          simp
      | false =>
          have hnames : names (piece :: rest) = piece :: names rest := by
            rw [← List.singleton_append, names_append, names_singleton hidle]
            rfl
          rw [hnames, passes_cons hdir]
          unfold makeDirsFrom makeStep
          dsimp only
          rw [step_name hdir hidle hpiece]
          by_cases hlong : maxName < piece.utf8ByteSize
          · rw [if_pos hlong, show isTooLong piece = true from decide_eq_true hlong]
            exact iff_of_false Bool.false_ne_true fun h => Bool.false_ne_true h.1.1.symm
          · rw [if_neg hlong, show isTooLong piece = false from decide_eq_false hlong]
            cases hnode : t.node? (place ++ [piece]) with
            | none =>
                rw [if_neg (by simp)]
                dsimp only
                have hinsert := node?_insert (t := t) (show place ++ [piece] ≠ [] by simp) .dir
                have hfiles : ∀ q content,
                    (⟨t.nodes.insert (place ++ [piece]) .dir⟩ : Tree).node? q
                        = some (.file content) ↔ t.node? q = some (.file content) := by
                  intro q content
                  rw [hinsert]
                  by_cases hq : q = place ++ [piece]
                  · subst hq
                    simp [hnode]
                  · rw [if_neg hq]
                rw [ih hrest ((hinsert _).trans (if_pos rfl)), Passes.congr hfiles]
                simp
            | some node =>
                rw [if_pos (show (some node).isSome = true from rfl)]
                dsimp only
                cases node with
                | dir =>
                    rw [if_neg (by simp [hnode])]
                    dsimp only
                    rw [ih hrest hnode]
                    simp
                | file content =>
                    -- a file is no directory to end at, nor one to go on from
                    refine iff_of_false ?_ fun h =>
                      h.2 (place ++ [piece]) ⟨[], List.nil_prefix, by simp⟩ content hnode
                    cases rest with
                    | nil => simp [hnode, Except.isOk, Except.toBool]
                    | cons next rest =>
                        rw [if_neg (by simp)]
                        dsimp only
                        rw [makeDirsFrom_of_file hnode]
                        simp [Except.isOk, Except.toBool]

/-- A file is moved into a directory just if its name is one, and not too
long, and not that of a directory. -/
theorem moveInto_isOk_iff (hclosed : t.Closed) (hup : ".." ∉ pieces)
    (hdir : t.node? (names pieces).dropLast = some .dir) (content : Bytes) :
    (t.moveInto pieces content).isOk = true
      ↔ isFilePath pieces = true ∧ EndsShort pieces ∧ t.node? (names pieces) ≠ some .dir := by
  constructor
  · intro h
    cases hmove : t.moveInto pieces content with
    | error e =>
        rw [hmove] at h
        cases h
    | ok t' =>
        obtain ⟨hfile, hshort, -, hnode, -⟩ := moveInto_ok hup hmove
        exact ⟨hfile, hshort, hnode⟩
  · intro h
    obtain ⟨hfile, hshort, hnode⟩ := h
    obtain ⟨above, name, rfl, hname⟩ := isFilePath_iff.1 hfile
    rw [dropLast_names above hname] at hdir
    rw [names_concat above hname] at hnode
    have hlen : isTooLong name = false :=
      decide_eq_false (Nat.not_lt.2 (hshort name (List.getLast?_concat ..)))
    rw [moveInto_name hclosed hup hname hdir, hlen, if_neg Bool.false_ne_true, if_neg hnode]
    rfl

end Files.Tree

-- ===================================================== paths that are taken

namespace Path

variable {path : String}

/-- The pieces at the front of a path are text at its front. -/
theorem exists_append_of_prefix {front : List String} (h : front <+: split '/' path) :
    ∃ rest, path = joinWith '/' front ++ rest := by
  obtain ⟨back, hsplit⟩ := h
  have hpath : joinWith '/' (front ++ back) = path := by rw [hsplit, joinWith_split]
  rcases front.eq_nil_or_concat with rfl | ⟨front, last, rfl⟩
  · exact ⟨path, (String.empty_append).symm⟩
  · rcases back.eq_nil_or_concat with rfl | ⟨back, final, rfl⟩
    · rw [List.append_nil] at hpath
      exact ⟨"", by rw [hpath, String.append_empty]⟩
    · rw [joinWith_append (by simp) (by simp), String.append_assoc] at hpath
      exact ⟨_, hpath.symm⟩

/-- A path starts with its directory. -/
theorem exists_append_parent (path : String) : ∃ rest, path = parent path ++ rest := by
  refine exists_append_of_prefix ?_
  unfold namesBackwards
  rw [← List.reverse_suffix, List.reverse_reverse]
  exact ((List.dropWhile_suffix _).trans (List.tail_suffix _)).trans (List.dropWhile_suffix _)

end Path

namespace Files

/-- What a path starts with is taken if the path is. -/
theorem refusal?_append {a b : String} (h : refusal? (a ++ b) = none) : refusal? a = none := by
  unfold refusal? at h ⊢
  simp only [String.toList_append, String.utf8ByteSize_append, List.contains_append] at h
  split at h
  · cases h
  · next hnul =>
    split at h
    · cases h
    · next hlen =>
      rw [if_neg (by simp at hnul ⊢; exact hnul.1), if_neg (by omega)]

/-- So is the directory of a path. -/
theorem refusal?_parent {path : String} (h : refusal? path = none) :
    refusal? (Path.parent path) = none := by
  obtain ⟨rest, hpath⟩ := Path.exists_append_parent path
  rw [hpath] at h
  exact refusal?_append h

end Files

namespace Transaction

variable {tx : Transaction} {store after : Store} {relpath : String} {blobs : List (String × Bytes)}

-- ===================================================== staging and moving

/-- There is room for a file at the place of a relpath: its path is taken, as
is that of its temporary file, it passes no file, and no directory lies
there. -/
structure Room (store : Store) (relpath : String) : Prop where
  taken : Files.refusal? (Path.join store.filesRoot relpath) = none
  scratch : Files.refusal? (store.scratchPath relpath) = none
  passes : Passes store.files [] (Store.place relpath).dropLast
  free : store.files.node? (Store.place relpath) ≠ some .dir

/-- A blob can be put in its place: there is room, and the relpath ends in a
name, and none of its names is too long. -/
structure Admits (store : Store) (relpath : String) : Prop extends Room store relpath where
  file : isFilePath (Store.pieces relpath) = true
  short : ∀ piece ∈ Store.pieces relpath, isTooLong piece = false

/-- A blob is staged just if its directory can be made and the path of its
temporary file is taken. -/
structure Stageable (store : Store) (relpath : String) : Prop where
  dir : Files.refusal? (Path.parent (Path.join store.filesRoot relpath)) = none
  short : ∀ piece ∈ parentPieces relpath, isTooLong piece = false
  passes : Passes store.files [] (Store.place relpath).dropLast
  scratch : Files.refusal? (store.scratchPath relpath) = none

/-- Where the same files are, the same can be staged. -/
theorem Stageable.congr (hroot : after.root = store.root) (hcwd : after.cwd = store.cwd)
    (hfiles : ∀ q content, after.files.node? q = some (.file content)
      ↔ store.files.node? q = some (.file content)) :
    Stageable after relpath ↔ Stageable store relpath := by
  have hscratch := scratchPath_congr hroot hcwd relpath
  constructor
  · intro h
    refine ⟨?_, h.short, (Passes.congr hfiles).1 h.passes, hscratch ▸ h.scratch⟩
    rw [← filesRoot_congr hroot]
    exact h.dir
  · intro h
    refine ⟨?_, h.short, (Passes.congr hfiles).2 h.passes, hscratch.symm ▸ h.scratch⟩
    rw [filesRoot_congr hroot]
    exact h.dir

theorem stage_isOk_iff {blob : String × Bytes} (hvalid : Relpath.isValid blob.1 = true)
    (store : Store) : (stage store blob).2.isOk = true ↔ Stageable store blob.1 := by
  have hmade := makeDirsFrom_isOk_iff (up_not_mem_parentPieces hvalid) (node?_nil store.files)
  change (store.files.makeDirs (parentPieces blob.1)).2.isOk = true ↔ _ at hmade
  rw [names_parentPieces] at hmade
  have hstages := stages store blob
  generalize stage store blob = staged at hstages ⊢
  obtain ⟨after, answer⟩ := staged
  dsimp only at hstages ⊢
  cases hstages with
  | refused hdir => exact iff_of_false Bool.false_ne_true fun h => nomatch hdir.symm.trans h.dir
  | unmade hdir hmake =>
      rw [hmake] at hmade
      exact iff_of_false Bool.false_ne_true fun h =>
        Bool.false_ne_true (hmade.2 ⟨h.short, h.passes⟩)
  | cramped hdir hmake hscratch =>
      exact iff_of_false Bool.false_ne_true fun h => nomatch hscratch.symm.trans h.scratch
  | made hdir hmake hscratch =>
      rw [hmake] at hmade
      obtain ⟨hshort, hpasses⟩ := hmade.1 rfl
      exact iff_of_true rfl ⟨hdir, hshort, hpasses, hscratch⟩

/-- Staging makes no files. -/
theorem Stages.file_iff {answer : Except StoreError Unit} (h : Stages store relpath after answer)
    (hvalid : Relpath.isValid relpath = true) (q : Place) (content : Bytes) :
    after.files.node? q = some (.file content) ↔ store.files.node? q = some (.file content) := by
  rcases (h.grown hvalid).node q with hsame | ⟨hnone, hdir, -⟩
  · rw [hsame]
  · simp [hnone, hdir]

/-- Blobs are staged just if each of them is, from where all start. -/
theorem stageAll_isOk_iff (hvalid : ∀ blob ∈ blobs, Relpath.isValid blob.1 = true)
    (store : Store) :
    (stageAll store blobs).2.isOk = true ↔ ∀ blob ∈ blobs, Stageable store blob.1 := by
  unfold stageAll
  induction blobs generalizing store with
  | nil => exact iff_of_true rfl nofun
  | cons blob blobs ih =>
      have hfirst := hvalid _ (List.mem_cons_self ..)
      have hrest := fun blob hmem => hvalid blob (List.mem_cons_of_mem _ hmem)
      have hone := stage_isOk_iff hfirst store
      rw [List.forall_mem_cons, ← hone, inTurn]
      cases hstage : stage store blob with
      | mk after answer =>
          have hstages := stages_of_eq hstage
          cases answer with
          | error e => simp [Except.isOk, Except.toBool]
          | ok _ =>
              have hcongr : ∀ relpath, Stageable after relpath ↔ Stageable store relpath :=
                fun relpath => Stageable.congr (by rw [hstages.frame]) (by rw [hstages.frame])
                  (hstages.file_iff hfirst)
              dsimp only
              rw [ih hrest]
              simp only [hcongr]
              exact (and_iff_right rfl).symm

/-- A path is taken, and leads to a name that is not that of a directory. -/
structure Movable (store : Store) (relpath : String) : Prop where
  taken : Files.refusal? (Path.join store.filesRoot relpath) = none
  file : isFilePath (Store.pieces relpath) = true
  short : EndsShort (Store.pieces relpath)
  free : store.files.node? (Store.place relpath) ≠ some .dir

/-- A blob whose directory is there is moved just if it can be. -/
theorem move_isOk_iff {blob : String × Bytes} (hvalid : Relpath.isValid blob.1 = true)
    (hclosed : store.files.Closed)
    (hdir : store.files.node? (Store.place blob.1).dropLast = some .dir) :
    (move store blob).2.isOk = true ↔ Movable store blob.1 := by
  have hinto := moveInto_isOk_iff hclosed (Relpath.up_not_mem hvalid) hdir blob.2
  rcases move_cases store blob with ⟨files, hreach, hmove⟩ | ⟨cause, hreach, hmove⟩
  · obtain ⟨htaken, hok⟩ := reach_eq_ok_iff.1 hreach
    rw [hok] at hinto
    obtain ⟨hfile, hshort, hfree⟩ := hinto.1 rfl
    rw [hmove]
    exact iff_of_true rfl ⟨htaken, hfile, hshort, hfree⟩
  · rw [hmove]
    refine iff_of_false Bool.false_ne_true fun h => ?_
    rcases reach_eq_error_iff.1 hreach with hrefused | ⟨-, herror⟩
    · exact nomatch hrefused.symm.trans h.taken
    · rw [herror] at hinto
      exact Bool.false_ne_true (hinto.2 ⟨h.file, h.short, h.free⟩)

/-- Moving a blob makes and loses no directory. -/
theorem move_dir_iff {blob : String × Bytes} (hvalid : Relpath.isValid blob.1 = true)
    (h : move store blob = (after, .ok ())) (q : Place) :
    after.files.node? q = some .dir ↔ store.files.node? q = some .dir := by
  obtain ⟨files, hreach, rfl⟩ := move_eq_ok h
  obtain ⟨hfile, -, -, hfree, rfl⟩ :=
    moveInto_ok (Relpath.up_not_mem hvalid) (reach_eq_ok_iff.1 hreach).2
  dsimp only
  rw [node?_put (names_ne_nil hfile)]
  by_cases hq : q = names (Store.pieces blob.1)
  · subst hq
    simp [hfree]
  · rw [if_neg hq]

/-- Blobs whose directories are there are moved just if each of them can be,
from where all start. -/
theorem moveAll_isOk_iff (hvalid : ∀ blob ∈ blobs, Relpath.isValid blob.1 = true)
    (hclosed : store.files.Closed)
    (hdirs : ∀ blob ∈ blobs, store.files.node? (Store.place blob.1).dropLast = some .dir) :
    (moveAll store blobs).2.isOk = true ↔ ∀ blob ∈ blobs, Movable store blob.1 := by
  unfold moveAll
  induction blobs generalizing store with
  | nil => exact iff_of_true rfl nofun
  | cons blob blobs ih =>
      have hfirst := hvalid _ (List.mem_cons_self ..)
      have hrest := fun blob hmem => hvalid blob (List.mem_cons_of_mem _ hmem)
      have hone := move_isOk_iff hfirst hclosed (hdirs _ (List.mem_cons_self ..))
      rw [List.forall_mem_cons, ← hone, inTurn]
      cases hmove : move store blob with
      | mk after answer =>
          cases answer with
          | error e => simp [Except.isOk, Except.toBool]
          | ok _ =>
              have hsame := move_dir_iff hfirst hmove
              obtain ⟨files, hreach, rfl⟩ := move_eq_ok hmove
              have hcongr : ∀ relpath, Movable { store with files } relpath
                  ↔ Movable store relpath := fun relpath =>
                ⟨fun h => ⟨h.taken, h.file, h.short, fun hdir => h.free ((hsame _).2 hdir)⟩,
                  fun h => ⟨h.taken, h.file, h.short, fun hdir => h.free ((hsame _).1 hdir)⟩⟩
              dsimp only
              rw [ih hrest (moveInto_closed (Relpath.up_not_mem hfirst)
                (reach_eq_ok_iff.1 hreach).2 hclosed)
                fun blob hmem => (hsame _).2 (hdirs blob (List.mem_cons_of_mem _ hmem))]
              simp only [hcongr]
              exact (and_iff_right rfl).symm

/-- Pieces that say nothing do not matter for whether all are short. -/
theorem forall_short_dropWhile (pieces : List String) :
    (∀ piece ∈ pieces.dropWhile Path.isIdle, isTooLong piece = false)
      ↔ ∀ piece ∈ pieces, isTooLong piece = false := by
  induction pieces with
  | nil => rfl
  | cons piece rest ih =>
      cases hidle : Path.isIdle piece with
      | true =>
          rw [List.dropWhile_cons_of_pos hidle, ih, List.forall_mem_cons, isTooLong_of_idle hidle]
          simp
      | false => rw [List.dropWhile_cons_of_neg (by simp [hidle])]

/-- The pieces of a path to a file are those of its directory, and a name. -/
theorem forall_short_iff (hfile : isFilePath (Store.pieces relpath) = true) :
    (∀ piece ∈ Store.pieces relpath, isTooLong piece = false)
      ↔ (∀ piece ∈ parentPieces relpath, isTooLong piece = false)
        ∧ EndsShort (Store.pieces relpath) := by
  obtain ⟨above, name, hpieces, hname⟩ := isFilePath_iff.1 hfile
  have hback : Path.namesBackwards relpath = name :: above.reverse := by
    unfold Path.namesBackwards
    rw [show split '/' relpath = above ++ [name] from hpieces, List.reverse_concat,
      List.dropWhile_cons_of_neg (by simp [hname])]
  have hlast : EndsShort (above ++ [name]) ↔ isTooLong name = false := by
    unfold EndsShort isTooLong
    simp
  unfold parentPieces
  rw [hback, hpieces, List.tail_cons, hlast]
  simp only [List.mem_reverse]
  rw [forall_short_dropWhile]
  simp only [List.mem_reverse, List.forall_mem_append, List.forall_mem_singleton]

/-- Blobs that are staged are moved just if each of them can be from where
they were staged, and none is to lie above another. -/
theorem moveAll_of_staged (hvalid : ∀ blob ∈ blobs, Relpath.isValid blob.1 = true)
    (hclosed : store.files.Closed) {ready : Store}
    (hstage : stageAll store blobs = (ready, .ok ())) :
    (moveAll ready blobs).2.isOk = true
      ↔ ∀ blob ∈ blobs,
          Movable store blob.1 ∧ isAbove blobs (Store.place blob.1) = false := by
  have hready := node?_stageAll hvalid hstage
  have hgrown := stageAll_grown hvalid store
  rw [hstage] at hgrown
  have hdirs : ∀ blob ∈ blobs, ready.files.node? (Store.place blob.1).dropLast = some .dir := by
    intro blob hmem
    rw [hready, if_pos (isAbove_of_mem hmem (List.prefix_refl _))]
  have hroot : ready.filesRoot = store.filesRoot :=
    filesRoot_congr (by rw [stageAll_eq hstage])
  have hmovable : ∀ relpath, Movable ready relpath
      ↔ Movable store relpath ∧ isAbove blobs (Store.place relpath) = false := by
    intro relpath
    have hfree : ready.files.node? (Store.place relpath) ≠ some .dir
        ↔ store.files.node? (Store.place relpath) ≠ some .dir
          ∧ isAbove blobs (Store.place relpath) = false := by
      rw [hready]
      cases isAbove blobs (Store.place relpath) <;> simp
    constructor
    · intro h
      obtain ⟨hnot, habove⟩ := hfree.1 h.free
      exact ⟨⟨hroot ▸ h.taken, h.file, h.short, hnot⟩, habove⟩
    · intro h
      exact ⟨hroot.symm ▸ h.1.taken, h.1.file, h.1.short, hfree.2 ⟨h.1.free, h.2⟩⟩
  rw [moveAll_isOk_iff hvalid (hgrown.closed hclosed) hdirs]
  simp only [hmovable]

/-- A blob can be put in its place just if it can be staged and moved. -/
theorem admits_iff : Admits store relpath ↔ Stageable store relpath ∧ Movable store relpath := by
  constructor
  · intro h
    obtain ⟨hshort, hends⟩ := (forall_short_iff h.file).1 h.short
    exact ⟨⟨refusal?_parent h.taken, hshort, h.passes, h.scratch⟩,
      h.taken, h.file, hends, h.free⟩
  · intro h
    obtain ⟨hstage, hmove⟩ := h
    exact ⟨⟨hmove.taken, hstage.scratch, hstage.passes, hmove.free⟩, hmove.file,
      (forall_short_iff hmove.file).2 ⟨hstage.short, hmove.short⟩⟩

/-- A commit puts its blobs in their places just if the disk admits each of
them and none is to lie above another. -/
theorem placed_iff (hpends : tx.Pends) (hclosed : store.files.Closed) :
    (∃ after, tx.Placed store after)
      ↔ ∀ blob ∈ tx.staged,
          Admits store blob.1 ∧ isAbove tx.staged (Store.place blob.1) = false := by
  have hstaged := stageAll_isOk_iff hpends.staged store
  simp only [admits_iff]
  constructor
  · intro h
    obtain ⟨after, ready, hstage, hmove⟩ := h
    have hmoved := moveAll_of_staged hpends.staged hclosed hstage
    rw [hstage] at hstaged
    rw [hmove] at hmoved
    intro blob hmem
    obtain ⟨hmovable, habove⟩ := hmoved.1 rfl blob hmem
    exact ⟨⟨hstaged.1 rfl blob hmem, hmovable⟩, habove⟩
  · intro h
    have hready := hstaged.2 fun blob hmem => (h blob hmem).1.1
    cases hstage : stageAll store tx.staged with
    | mk ready answer =>
        rw [hstage] at hready
        cases answer with
        | error e => cases hready
        | ok _ =>
            have hdone := (moveAll_of_staged hpends.staged hclosed hstage).2 fun blob hmem =>
              ⟨(h blob hmem).1.2, (h blob hmem).2⟩
            cases hmove : moveAll ready tx.staged with
            | mk after answer =>
                rw [hmove] at hdone
                cases answer with
                | error e => cases hdone
                | ok _ => exact ⟨after, ready, hstage, hmove⟩

/-- A commit that is refused puts not all its blobs in their places. -/
theorem Refused.not_placed {e : StoreError} (h : tx.Refused store after e) :
    ¬∃ after, tx.Placed store after := by
  intro hplaced
  obtain ⟨after', ready', hstage', hmove'⟩ := hplaced
  rcases h with hstage | ⟨ready, hstage, hmove⟩
  · rw [hstage] at hstage'
    cases hstage'
  · rw [hstage] at hstage'
    cases hstage'
    rw [hmove] at hmove'
    cases hmove'

end Transaction

end Depot
