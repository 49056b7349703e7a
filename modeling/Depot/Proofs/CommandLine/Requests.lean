/-
What a commit asks of the operating system. For each blob it makes the
directory, creates a temporary file there and writes the content to it;
then it renames each of these files to the place of its blob; and in the
end it removes the files of the blobs that are deleted
(`Transaction.requests`). If a request is refused, the temporary files that
there are then are removed, and nothing else is asked for
(`Request.asked`).

The names of temporary files are picked. Where they are new, the requests
leave the files that the commit leaves (`files_of_requests`): what is asked
for one blob stages it as `Transaction.stageOne` does, and the rest follows
blob by blob as `Transaction.attempt` goes through them.
-/
import Depot.Proofs.CommandLine.Serving
import Depot.Proofs.Store.Attempt
import Depot.Proofs.Text.Octets

namespace Depot

open Files Files.Tree Text

-- ===================================================== names that are picked

/-- The name of a temporary file, with the six letters or digits that are
picked for it. -/
structure ScratchName where
  letters : List Char
  six : letters.length = 6
  plain : ∀ c ∈ letters, c.isAlphanum = true

namespace ScratchName

variable (name : ScratchName)

/-- The name as text. -/
def text : String := ".tmp" ++ String.ofList name.letters

theorem toList_text : name.text.toList = ".tmp".toList ++ name.letters := by
  unfold text
  rw [String.toList_append]
  exact congrArg _ String.toList_ofList

/-- Letters and digits are neither slashes nor NUL, and one octet each. -/
theorem of_isAlphanum {c : Char} (h : c.isAlphanum = true) :
    c ≠ '/' ∧ c ≠ '\x00' ∧ c.utf8Size = 1 := by
  have hlow : c.val ≤ 0x7f := by
    unfold Char.isAlphanum Char.isAlpha Char.isUpper Char.isLower Char.isDigit at h
    simp only [Bool.or_eq_true, Bool.and_eq_true, decide_eq_true_eq] at h
    grind
  refine ⟨?_, ?_, ?_⟩
  · rintro rfl
    exact absurd h (by decide)
  · rintro rfl
    exact absurd h (by decide)
  · unfold Char.utf8Size
    exact if_pos hlow

theorem slash_not_mem : '/' ∉ name.text.toList := by
  rw [toList_text, List.mem_append, not_or]
  exact ⟨by decide, fun hmem => (of_isAlphanum (name.plain _ hmem)).1 rfl⟩

theorem nul_not_mem : '\x00' ∉ name.text.toList := by
  rw [toList_text, List.mem_append, not_or]
  exact ⟨by decide, fun hmem => (of_isAlphanum (name.plain _ hmem)).2.1 rfl⟩

theorem split_text : split '/' name.text = [name.text] := split_of_not_mem name.slash_not_mem

/-- All names are of one size. -/
theorem size_text : name.text.utf8ByteSize = 10 := by
  have hsize : (String.ofList name.letters).utf8ByteSize = name.letters.length :=
    IsNarrow.utf8ByteSize fun c hc => (of_isAlphanum (name.plain c hc)).2.2
  unfold text
  rw [String.utf8ByteSize_append, hsize, name.six]
  rfl

theorem ne_of_short {s : String} (h : s.utf8ByteSize < 10) : name.text ≠ s := by
  rintro rfl
  rw [size_text] at h
  omega

theorem isIdle_text : Path.isIdle name.text = false := by
  unfold Path.isIdle
  simp [name.ne_of_short (s := "") (by decide), name.ne_of_short (s := ".") (by decide)]

theorem text_ne_up : name.text ≠ ".." := name.ne_of_short (by decide)

end ScratchName

/-- Whether a path is taken depends on its size, and on whether it has a
NUL. -/
theorem Files.refusal?_congr {lead a b : String} (ha : '\x00' ∉ a.toList) (hb : '\x00' ∉ b.toList)
    (hsize : a.utf8ByteSize = b.utf8ByteSize) : refusal? (lead ++ a) = refusal? (lead ++ b) := by
  unfold refusal?
  simp only [String.toList_append, List.contains_eq_mem, List.mem_append, ha, hb, or_false,
    String.utf8ByteSize_append, hsize]

/-- What a path ends with is taken if the path is. -/
theorem Files.refusal?_of_join {base path : String} (h : refusal? (Path.join base path) = none) :
    refusal? path = none := by
  rcases Path.join_cases base path with heq | ⟨lead, heq⟩
  · rwa [heq] at h
  · rw [heq] at h
    unfold refusal? at h ⊢
    simp only [String.toList_append, String.utf8ByteSize_append, List.contains_append] at h
    split at h
    · cases h
    · next hnul =>
      split at h
      · cases h
      · next hlen =>
        rw [if_neg (by simp at hnul ⊢; exact hnul.2), if_neg (by omega)]

/-- The path of a temporary file is taken whatever its letters are, if it is
with these left open. -/
theorem Store.refusal?_beside (store : Store) (relpath : String) (name : ScratchName)
    (hvalid : Relpath.isValid relpath = true) :
    Files.refusal? (Path.join store.cwd (store.besidePath relpath name.text))
      = Files.refusal? (store.scratchPath relpath) := by
  have hparent : Path.parent (Path.join store.filesRoot relpath) ≠ "" := by
    rw [parent_eq hvalid]
    split
    · exact store.filesRoot_ends.1
    · rw [String.append_assoc]
      exact fun heq => store.filesRoot_ends.1 (String.append_eq_empty_iff.1 heq).1
  unfold scratchPath besidePath
  rw [Path.join_slash _ hparent, Path.join_slash _ hparent]
  exact refusal?_congr name.nul_not_mem (by decide) (by rw [name.size_text]; rfl)

-- ===================================================== what a commit asks for

namespace Request

variable (pick : String → ScratchName) (store : Store)

/-- The path of the temporary file of a blob. -/
def scratchOf (relpath : String) : String := store.besidePath relpath (pick relpath).text

/-- The requests that stage a blob. -/
def ofStaged (blob : String × Bytes) : List Request :=
  [.makeDirs (Path.parent (Path.join store.filesRoot blob.1)),
    .create (scratchOf pick store blob.1), .write (scratchOf pick store blob.1) blob.2]

/-- The request for a blob in its place. -/
def ofMoved (blob : String × Bytes) : Request :=
  .rename (scratchOf pick store blob.1) (Path.join store.filesRoot blob.1)

/-- The request for a blob to go. -/
def ofSwept (relpath : String) : Request := .remove (Path.join store.filesRoot relpath)

end Request

namespace Transaction

/-- What a commit asks of the operating system if nothing is refused. A
transaction that has ended never comes to what is deleted. -/
def requests (pick : String → ScratchName) (tx : Transaction) (store : Store) : List Request :=
  tx.staged.flatMap (Request.ofStaged pick store) ++ tx.staged.map (Request.ofMoved pick store)
    ++ if tx.view.isSome then tx.removals.map (Request.ofSwept store) else []

/-- The temporary files of names, on a disk that does not fail. -/
def scratches (pick : String → ScratchName) : Scratches := fun relpath =>
  { name := (pick relpath).text }

theorem faultless_scratches (pick : String → ScratchName) (blobs : List (String × Bytes)) :
    Faultless (scratches pick) blobs := fun _ _ => ⟨rfl, rfl⟩

variable {pick : String → ScratchName} {tx : Transaction} {store after : Store}

/-- All that a commit asks for is below the files directory. -/
theorem below_requests (hpends : tx.Pends) :
    ∀ r ∈ tx.requests pick store, r.Below store.filesRoot := by
  have hscratch : ∀ blob ∈ tx.staged, Path.Under store.filesRoot
      (Request.scratchOf pick store blob.1) := fun blob hblob => by
    refine Store.under_beside (hpends.staged blob hblob) ?_
    rw [(pick blob.1).split_text, List.mem_singleton]
    exact (pick blob.1).text_ne_up.symm
  unfold requests
  simp only [List.mem_append, List.mem_flatMap, List.mem_map]
  rintro r ((⟨blob, hblob, hr⟩ | ⟨blob, hblob, rfl⟩) | hr)
  · have hvalid := hpends.staged blob hblob
    unfold Request.ofStaged at hr
    simp only [List.mem_cons, List.not_mem_nil, or_false] at hr
    rcases hr with rfl | rfl | rfl
    · exact Store.under_parent hvalid
    · refine ⟨hscratch blob hblob, ?_⟩
      unfold Request.scratchOf
      rw [Store.beyond_beside hvalid, (pick blob.1).split_text]
      simp
    · exact hscratch blob hblob
  · have hvalid := hpends.staged blob hblob
    refine ⟨hscratch blob hblob, Store.under_path hvalid, ?_⟩
    obtain ⟨name, hmem, hname⟩ := Store.exists_name hvalid
    rw [Store.beyond_path hvalid]
    refine ⟨name, hmem, ?_⟩
    rintro rfl
    cases hname
  · split at hr
    · obtain ⟨relpath, hrelpath, rfl⟩ := List.mem_map.1 hr
      exact Store.under_path (hpends.removals relpath hrelpath)
    · cases hr

end Transaction

-- ===================================================== serving what is asked

namespace Request

variable {σ : Type} {act : σ → Request → σ × Except OsError Unit}

/-- What there is in the end, with what a refused request leads to. -/
def served (act : σ → Request → σ × Except OsError Unit) (state : σ) (held : List String)
    (requests : List Request) : σ :=
  serveEach act state (asked act state held requests)

/-- It is what the first request comes to, and then the others or the
removal of the temporary files that there are. -/
theorem served_cons (state : σ) (held : List String) (request : Request) (rest : List Request) :
    served act state held (request :: rest)
      = match act state request with
        | (next, .ok ()) => served act next (request.leaves held) rest
        | (next, .error _) => serveEach act next (held.map .remove) := by
  unfold served
  rw [asked]
  rcases hact : act state request with ⟨next, cause | _⟩
  · dsimp only
    unfold serveEach
    rw [List.foldl_cons, hact]
  · dsimp only
    unfold serveEach
    rw [List.foldl_cons, hact]

end Request

namespace Transaction

open Request (served scratchOf)

variable {pick : String → ScratchName} {hidden : String → Prop} {tx : Transaction}
  {store store' after after' : Store} {blob : String × Bytes} {relpath : String}
  {blobs held held' left rest : List (String × Bytes)}

/-- The place of a temporary file is where its path leads. -/
theorem beyond_scratchOf (store : Store) (h : Relpath.isValid relpath = true) :
    Path.beyond store.filesRoot (scratchOf pick store relpath)
      = parentPieces relpath ++ [(pick relpath).text] := by
  unfold scratchOf
  rw [Store.beyond_beside h, (pick relpath).split_text]

theorem scratchOf_congr (hroot : after.root = store.root) (relpath : String) :
    scratchOf pick after relpath = scratchOf pick store relpath := by
  unfold scratchOf Store.besidePath
  rw [filesRoot_congr hroot]

/-- The directory of a blob is there for its temporary file, whose path is
taken. -/
structure Housed (store : Store) (relpath : String) : Prop where
  walk : store.files.walk (parentPieces relpath) = .ok (Store.place relpath).dropLast
  dir : store.files.node? (Store.place relpath).dropLast = some .dir
  taken : refusal? (store.scratchPath relpath) = none

theorem Housed.mono (h : Housed store relpath) (hroot : after.root = store.root)
    (hcwd : after.cwd = store.cwd) (hdirs : KeepsDirs store.files after.files) :
    Housed after relpath :=
  ⟨walk_mono hdirs h.dir h.walk, hdirs _ h.dir, by rw [scratchPath_congr hroot hcwd]; exact h.taken⟩

/-- A blob that is staged is housed. -/
theorem Stages.housed (h : Stages store relpath after (.ok ()))
    (hvalid : Relpath.isValid relpath = true) : Housed after relpath := by
  have hdir := h.node? hvalid (Store.place relpath).dropLast
  rw [if_pos (List.prefix_refl _)] at hdir
  cases h with
  | made hrefusal hmake hscratch =>
      refine ⟨?_, hdir, hscratch⟩
      by_cases hnil : parentPieces relpath = []
      · rw [← names_parentPieces, hnil]
        rfl
      · obtain ⟨-, hwalk⟩ := walk_of_makeDirs hnil hmake
        rw [hwalk, walk_eq hwalk (up_not_mem_parentPieces hvalid), names_parentPieces]

/-- The path of a temporary file leads to it. -/
theorem Housed.walk_scratch (h : Housed store relpath)
    (hnode : (store.files.node? (scratchPlace (scratches pick) relpath)).isSome = true) :
    store.files.walk (parentPieces relpath ++ [(pick relpath).text])
      = .ok (scratchPlace (scratches pick) relpath) :=
  walk_name h.walk h.dir (pick relpath).isIdle_text (pick relpath).text_ne_up
    (by rw [(pick relpath).size_text]; decide) hnode

/-- The operating system takes its path. -/
theorem Housed.taken_scratch (h : Housed store relpath) (hvalid : Relpath.isValid relpath = true) :
    refusal? (Path.join store.cwd (scratchOf pick store relpath)) = none :=
  (store.refusal?_beside relpath (pick relpath) hvalid).trans h.taken

-- ----------------------------------------------------- single requests

/-- No directories are made along a path that is refused. -/
theorem serve_refused {dir : String} {cause : OsError} (store : Store)
    (hdir : Files.refusal? dir = some cause) :
    store.serve (.makeDirs dir) = (store, .error cause) := by
  unfold Store.serve Request.run
  dsimp only
  rw [hdir]

/-- Otherwise the directories of a blob are made, as far as that can be. -/
theorem serve_makeDirs (hvalid : Relpath.isValid relpath = true) {files : Tree}
    {made : Except OsError Place}
    (hdir : Files.refusal? (Path.parent (Path.join store.filesRoot relpath)) = none)
    (hmake : store.files.makeDirs (parentPieces relpath) = (files, made)) :
    store.serve (.makeDirs (Path.parent (Path.join store.filesRoot relpath)))
      = ({ store with files }, made.map fun _ => ()) := by
  unfold Store.serve Request.run
  dsimp only
  rw [hdir, store.beyond_parent hvalid, hmake]
  cases made <;> rfl

/-- A temporary file is created where there is nothing. -/
theorem Housed.serve_create (h : Housed store relpath) (hvalid : Relpath.isValid relpath = true)
    (hfree : store.files.node? (scratchPlace (scratches pick) relpath) = none) :
    store.serve (.create (scratchOf pick store relpath))
      = ({ store with files := store.files.put (scratchPlace (scratches pick) relpath) [] },
        .ok ()) := by
  have hcreate : store.files.create (parentPieces relpath ++ [(pick relpath).text])
      = .ok (store.files.put (scratchPlace (scratches pick) relpath) []) :=
    create_eq h.walk h.dir (pick relpath).isIdle_text (pick relpath).text_ne_up
      (by rw [(pick relpath).size_text]; decide) hfree
  unfold Store.serve Request.run
  dsimp only
  rw [beyond_scratchOf store hvalid, hcreate, reach_of_taken (h.taken_scratch hvalid)]
  rfl

/-- The content is written to it. -/
theorem Housed.serve_write (h : Housed store relpath) (hvalid : Relpath.isValid relpath = true)
    (hfile : (store.files.file? (scratchPlace (scratches pick) relpath)).isSome = true)
    (content : Bytes) :
    store.serve (.write (scratchOf pick store relpath) content)
      = ({ store with files := store.files.put (scratchPlace (scratches pick) relpath) content },
        .ok ()) := by
  have hwrite : store.files.write (parentPieces relpath ++ [(pick relpath).text]) content
      = .ok (store.files.put (scratchPlace (scratches pick) relpath) content) := by
    unfold write
    rw [h.walk_scratch (node_of_file hfile)]
    dsimp only
    rw [if_pos hfile]
  unfold Store.serve Request.run
  dsimp only
  rw [beyond_scratchOf store hvalid, hwrite]
  rfl

/-- It is renamed. -/
theorem Housed.serve_rename (h : Housed store blob.1) (hvalid : Relpath.isValid blob.1 = true)
    (hfile : (store.files.file? (scratchPlace (scratches pick) blob.1)).isSome = true) :
    store.serve (.ofMoved pick store blob)
      = match reach (Path.join store.filesRoot blob.1)
          (store.files.rename (scratchPlace (scratches pick) blob.1) (Store.pieces blob.1)) with
        | .ok files => ({ store with files }, .ok ())
        | .error cause => (store, .error cause) := by
  unfold Store.serve Request.run Request.ofMoved
  dsimp only
  rw [beyond_scratchOf store hvalid, Store.beyond_path hvalid,
    reach_of_taken (h.taken_scratch hvalid)]
  unfold renameAlong
  rw [h.walk_scratch (node_of_file hfile)]
  dsimp only
  cases reach (Path.join store.filesRoot blob.1)
      (store.files.rename (scratchPlace (scratches pick) blob.1) (Store.pieces blob.1)) <;> rfl

/-- It is removed. -/
theorem Housed.serve_remove (h : Housed store relpath) (hvalid : Relpath.isValid relpath = true)
    (hfile : (store.files.file? (scratchPlace (scratches pick) relpath)).isSome = true) :
    store.serve (.remove (scratchOf pick store relpath))
      = ({ store with
            files := ⟨store.files.nodes.erase (scratchPlace (scratches pick) relpath)⟩ },
        .ok ()) := by
  unfold Store.serve Request.run
  dsimp only
  rw [beyond_scratchOf store hvalid, Files.refusal?_of_join (h.taken_scratch hvalid)]
  unfold removeFile
  rw [h.walk_scratch (node_of_file hfile)]
  dsimp only
  rw [if_pos hfile]
  rfl

-- ----------------------------------------------------- what they come to

/-- What is asked for one blob stages it. -/
theorem served_stage (hvalid : Relpath.isValid blob.1 = true)
    (hfree : (stage store blob).1.files.node? (scratchPlace (scratches pick) blob.1) = none)
    (held : List String) (more : List Request) :
    served Store.serve store held (Request.ofStaged pick store blob ++ more)
      = match stageOne (scratches pick) store blob with
        | (after, .ok ()) =>
            served Store.serve after (held ++ [scratchOf pick store blob.1]) more
        | (after, .error _) => Request.serveEach Store.serve after (held.map .remove) := by
  unfold Request.ofStaged stageOne
  rw [List.cons_append, Request.served_cons]
  cases hstage : stage store blob with
  | mk after answer =>
      rw [hstage] at hfree
      have hstages := stages_of_eq hstage
      cases hstages with
      | refused hdir => rw [serve_refused store hdir]
      | unmade hdir hmake =>
          rw [serve_makeDirs hvalid hdir hmake]
          rfl
      | @cramped files dest cause hdir hmake hscratch =>
          have hcreate : ({ store with files } : Store).serve
              (.create (scratchOf pick store blob.1)) = ({ store with files }, .error cause) := by
            have hrefused := (store.refusal?_beside blob.1 (pick blob.1) hvalid).trans hscratch
            unfold Store.serve Request.run reach scratchOf
            dsimp only
            rw [hrefused]
            rfl
          rw [serve_makeDirs hvalid hdir hmake]
          dsimp only [Except.map]
          rw [List.cons_append, Request.served_cons, hcreate]
          rfl
      | @made files dest hdir hmake hscratch =>
          have hhoused := (Stages.made hdir hmake hscratch).housed hvalid
          let place := scratchPlace (scratches pick) blob.1
          have hfile : ((files.put place []).file? place).isSome = true := by
            unfold file?
            rw [node?_put (scratchPlace_ne_nil blob.1), if_pos rfl]
            rfl
          have hwritten : Housed { store with files := files.put place [] } blob.1 :=
            hhoused.mono rfl rfl fun q hq => put_dirs (by rw [hfree]; simp) [] hq
          have hcreate : ({ store with files } : Store).serve
              (.create (scratchOf pick store blob.1)) = _ := hhoused.serve_create hvalid hfree
          have hwrite : ({ store with files := files.put place [] } : Store).serve
              (.write (scratchOf pick store blob.1) blob.2) = _ :=
            hwritten.serve_write hvalid hfile blob.2
          rw [Files.Tree.put_put] at hwrite
          rw [serve_makeDirs hvalid hdir hmake]
          dsimp only [Except.map]
          rw [List.cons_append, Request.served_cons, hcreate]
          dsimp only
          rw [List.cons_append, Request.served_cons, hwrite]
          rfl

-- ----------------------------------------------------- staging

variable {answer : Except StoreError Unit}

theorem ofStaged_congr (hroot : after.root = store.root) :
    Request.ofStaged pick after = Request.ofStaged pick store := by
  funext blob
  unfold Request.ofStaged
  rw [filesRoot_congr hroot, scratchOf_congr hroot]

theorem ofMoved_congr (hroot : after.root = store.root) :
    Request.ofMoved pick after = Request.ofMoved pick store := by
  funext blob
  unfold Request.ofMoved
  rw [filesRoot_congr hroot, scratchOf_congr hroot]

/-- The temporary files of blobs. -/
def scratchesOf (pick : String → ScratchName) (store : Store) (held : List (String × Bytes)) :
    List String :=
  held.map fun blob => scratchOf pick store blob.1

theorem scratchesOf_congr (hroot : after.root = store.root) (held : List (String × Bytes)) :
    scratchesOf pick after held = scratchesOf pick store held := by
  unfold scratchesOf
  simp only [scratchOf_congr hroot]

/-- A blob that has been staged, with its temporary file. -/
structure Ready (pick : String → ScratchName) (store : Store) (blob : String × Bytes) : Prop
    extends Housed store blob.1 where
  valid : Relpath.isValid blob.1 = true
  file : (store.files.file? (scratchPlace (scratches pick) blob.1)).isSome = true

/-- Temporary files are removed as they are discarded. -/
theorem serveEach_discard (hready : ∀ blob ∈ held, Ready pick store blob)
    (hdistinct : held.Pairwise fun a b =>
      scratchPlace (scratches pick) a.1 ≠ scratchPlace (scratches pick) b.1) :
    Request.serveEach Store.serve store ((scratchesOf pick store held).map .remove)
      = discard (scratches pick) store held := by
  induction held generalizing store with
  | nil => rfl
  | cons blob held ih =>
      obtain ⟨hfirst, hrest⟩ := List.forall_mem_cons.1 hready
      obtain ⟨hne, hdistinct'⟩ := List.pairwise_cons.1 hdistinct
      have hremove := hfirst.serve_remove hfirst.valid hfirst.file
      have hready' : ∀ other ∈ held, Ready pick { store with
          files := ⟨store.files.nodes.erase (scratchPlace (scratches pick) blob.1)⟩ } other := by
        intro other hother
        refine ⟨(hrest other hother).mono rfl rfl fun q => erase_dirs (ne_dir_of_file hfirst.file),
          (hrest other hother).valid, ?_⟩
        have hfile := (hrest other hother).file
        unfold file? at hfile ⊢
        rwa [node?_erase (scratchPlace_ne_nil blob.1), if_neg (hne other hother).symm]
      unfold scratchesOf Request.serveEach
      rw [List.map_cons, List.map_cons, List.foldl_cons, hremove]
      exact ih hready' hdistinct'

/-- There is nothing yet where a temporary file is to be. -/
theorem Beside.free_stage {scratch : Scratches} (h : Beside scratch hidden held store store')
    (hvalid : Relpath.isValid blob.1 = true) (hshown : Shown hidden (Store.pieces blob.1))
    (hname : hidden (scratch blob.1).name)
    (hfree : store.files.node? (scratchPlace scratch blob.1) = none)
    (hnew : ∀ other ∈ held, scratchPlace scratch other.1 ≠ scratchPlace scratch blob.1) :
    (Transaction.stage store' blob).1.files.node? (scratchPlace scratch blob.1) = none := by
  obtain ⟨-, hbeside⟩ := h.stage hvalid hshown
  have hstill := node?_stage_of_hidden hvalid hshown hname hfree
  rw [node?_of_ne (scratchPlace_ne_nil _), hbeside.hosts.other _ (List.forall_mem_map.2 hnew),
    ← node?_of_ne (scratchPlace_ne_nil _)]
  exact hstill

/-- What is staged is ready, and no directory is lost by it. -/
theorem stageOne_ready (hvalid : Relpath.isValid blob.1 = true)
    (hfree : (stage store blob).1.files.node? (scratchPlace (scratches pick) blob.1) = none)
    (h : stageOne (scratches pick) store blob = (after, answer)) :
    after.root = store.root ∧ after.cwd = store.cwd ∧ KeepsDirs store.files after.files
      ∧ (answer = .ok () → Ready pick after blob) := by
  unfold stageOne at h
  cases hstage : stage store blob with
  | mk between staged =>
      rw [hstage] at h hfree
      have hstages := stages_of_eq hstage
      have hdirs : KeepsDirs store.files between.files := fun q => (hstages.grown hvalid).dir
      cases staged with
      | error e =>
          cases h
          exact ⟨by rw [hstages.frame], by rw [hstages.frame], hdirs, nofun⟩
      | ok _ =>
          cases h
          have hput : KeepsDirs between.files
              (between.files.put (scratchPlace (scratches pick) blob.1) blob.2) :=
            fun q => put_dirs (by rw [hfree]; simp) blob.2
          refine ⟨by rw [hstages.frame], by rw [hstages.frame], hdirs.trans hput, fun _ => ?_⟩
          refine ⟨(hstages.housed hvalid).mono rfl rfl hput, hvalid, ?_⟩
          unfold file?
          rw [node?_put (scratchPlace_ne_nil blob.1), if_pos rfl]
          rfl

/-- The temporary files are there. -/
theorem Beside.ready (h : Beside (scratches pick) hidden held store store')
    (hhoused : ∀ blob ∈ held, Relpath.isValid blob.1 = true ∧ Housed store' blob.1) :
    ∀ blob ∈ held, Ready pick store' blob := by
  intro blob hblob
  obtain ⟨hvalid, hhouse⟩ := hhoused blob hblob
  refine ⟨hhouse, hvalid, ?_⟩
  have hfile := h.hosts.file _ (List.mem_map_of_mem hblob)
  unfold file?
  rw [node?_of_ne (scratchPlace_ne_nil blob.1), show store'.files.nodes[_]? = _ from hfile]
  rfl

/-- What is asked for blobs stages them; if one is refused, the temporary
files of the others are discarded. -/
theorem served_staging (hstaging : Staging (scratches pick) hidden held rest store)
    (h : Beside (scratches pick) hidden held store store')
    (hhoused : ∀ blob ∈ held, Relpath.isValid blob.1 = true ∧ Housed store' blob.1)
    (hstage : stageScratch (scratches pick) store' held rest = (after', held', answer))
    (more : List Request) :
    (answer = .ok () →
        served Store.serve store' (scratchesOf pick store' held)
            (rest.flatMap (Request.ofStaged pick store') ++ more)
          = served Store.serve after' (scratchesOf pick after' held') more
        ∧ ∀ blob ∈ held', Housed after' blob.1)
      ∧ (answer ≠ .ok () →
        served Store.serve store' (scratchesOf pick store' held)
            (rest.flatMap (Request.ofStaged pick store') ++ more)
          = discard (scratches pick) after' held') := by
  induction rest generalizing store store' held with
  | nil =>
      cases hstage
      exact ⟨fun _ => ⟨rfl, fun blob hblob => (hhoused blob hblob).2⟩, fun hne => absurd rfl hne⟩
  | cons blob rest ih =>
      have hself : blob ∈ blob :: rest := List.mem_cons_self ..
      have hvalid := hstaging.valid blob hself
      have hnew : ∀ other ∈ held, scratchPlace (scratches pick) other.1
          ≠ scratchPlace (scratches pick) blob.1 := fun other hother =>
        (List.pairwise_append.1 hstaging.distinct).2.2 other hother blob hself
      have hfree := h.free_stage hvalid (hstaging.shown blob hself) (hstaging.named blob hself)
        (hstaging.free blob hself) hnew
      unfold stageScratch at hstage
      rw [List.flatMap_cons, List.append_assoc, served_stage hvalid hfree]
      rcases h.stageOne hvalid (hstaging.shown blob hself) (hstaging.named blob hself)
          (hstaging.free blob hself) hnew with
        ⟨between', hone, hok, hbeside⟩ | ⟨between', e, hone, hbeside, -⟩
      · obtain ⟨hroot, hcwd, hdirs, hready⟩ := stageOne_ready hvalid hfree hone
        have hhoused' : ∀ other ∈ held ++ [blob],
            Relpath.isValid other.1 = true ∧ Housed between' other.1 := by
          simp only [List.forall_mem_append, List.forall_mem_singleton]
          exact ⟨fun other hother =>
            ⟨(hhoused other hother).1, (hhoused other hother).2.mono hroot hcwd hdirs⟩,
            hvalid, (hready rfl).toHoused⟩
        rw [hone] at hstage ⊢
        have hlater := ih hstaging.next hbeside hhoused' hstage
        rw [ofStaged_congr hroot, scratchesOf_congr hroot] at hlater
        dsimp only
        unfold scratchesOf at hlater ⊢
        rw [List.map_append] at hlater
        exact hlater
      · obtain ⟨hroot, hcwd, hdirs, -⟩ := stageOne_ready hvalid hfree hone
        have hready := hbeside.ready fun other hother =>
          ⟨(hhoused other hother).1, (hhoused other hother).2.mono hroot hcwd hdirs⟩
        have hdiscard := serveEach_discard hready (List.pairwise_append.1 hstaging.distinct).1
        rw [scratchesOf_congr hroot] at hdiscard
        rw [hone] at hstage ⊢
        cases hstage
        exact ⟨fun hok => (by cases hok), fun _ => hdiscard⟩

-- ----------------------------------------------------- moving

/-- What is asked for blobs that are ready moves them; if one is refused, the
temporary files that are left are discarded. -/
theorem served_moving (hshown : ∀ blob ∈ rest, Shown hidden (Store.pieces blob.1))
    (hdistinct : rest.Pairwise fun a b =>
      scratchPlace (scratches pick) a.1 ≠ scratchPlace (scratches pick) b.1)
    (h : Beside (scratches pick) hidden rest store store')
    (hhoused : ∀ blob ∈ rest, Relpath.isValid blob.1 = true ∧ Housed store' blob.1)
    (hmove : moveScratch (scratches pick) store' rest = (after', left, answer))
    (more : List Request) :
    (answer = .ok () →
        served Store.serve store' (scratchesOf pick store' rest)
            (rest.map (Request.ofMoved pick store') ++ more)
          = served Store.serve after' [] more)
      ∧ (answer ≠ .ok () →
        served Store.serve store' (scratchesOf pick store' rest)
            (rest.map (Request.ofMoved pick store') ++ more)
          = discard (scratches pick) after' left) := by
  induction rest generalizing store store' with
  | nil =>
      cases hmove
      exact ⟨fun _ => rfl, fun hne => absurd rfl hne⟩
  | cons blob rest ih =>
      have hready := h.ready hhoused
      have hdiscard := serveEach_discard hready hdistinct
      obtain ⟨hnew, hdistinct'⟩ := List.pairwise_cons.1 hdistinct
      obtain ⟨hfirst, -⟩ := List.forall_mem_cons.1 hready
      obtain ⟨hvalid, -⟩ := (List.forall_mem_cons.1 hhoused).1
      unfold moveScratch at hmove
      rw [show (scratches pick blob.1).unmoved = none from rfl] at hmove
      dsimp only at hmove
      rw [List.map_cons, List.cons_append, Request.served_cons,
        hfirst.serve_rename hvalid hfirst.file, h.filesRoot]
      rw [h.filesRoot] at hmove
      rcases h.move hvalid (hshown blob (List.mem_cons_self ..)) hnew with
        ⟨cause, hrename, -⟩ | ⟨between, files', hrename, -, hbeside⟩
      · rw [hrename] at hmove ⊢
        cases hmove
        exact ⟨fun hok => (by cases hok), fun _ => hdiscard⟩
      · have hdirs : KeepsDirs store'.files files' := fun q =>
          rename_dirs (Relpath.up_not_mem hvalid) (reach_eq_ok_iff.1 hrename).2 q
        have hhoused' : ∀ other ∈ rest, Relpath.isValid other.1 = true
            ∧ Housed { store' with files := files' } other.1 := fun other hother =>
          ⟨(hhoused other (List.mem_cons_of_mem _ hother)).1,
            (hhoused other (List.mem_cons_of_mem _ hother)).2.mono rfl rfl hdirs⟩
        rw [hrename] at hmove ⊢
        dsimp only
        have hlater := ih (fun other hother => hshown other (List.mem_cons_of_mem _ hother))
          hdistinct' hbeside hhoused' hmove
        have hleaves : (Request.ofMoved pick store' blob).leaves
            (scratchesOf pick store' (blob :: rest)) = scratchesOf pick store' rest := by
          unfold scratchesOf Request.ofMoved Request.leaves
          dsimp only
          rw [List.map_cons, List.erase_cons_head]
        rw [hleaves]
        exact hlater

-- ----------------------------------------------------- sweeping

theorem ofSwept_congr (hroot : after.filesRoot = store.filesRoot) :
    Request.ofSwept after = Request.ofSwept store := by
  funext relpath
  unfold Request.ofSwept
  rw [hroot]

/-- What is asked for relpaths sweeps up their files. -/
theorem served_sweeping {relpaths : List String}
    (hvalid : ∀ relpath ∈ relpaths, Relpath.isValid relpath = true) (store : Store) :
    served Store.serve store [] (relpaths.map (Request.ofSwept store)) = sweep store relpaths := by
  induction relpaths generalizing store with
  | nil => rfl
  | cons relpath rest ih =>
      obtain ⟨hfirst, hrest⟩ := List.forall_mem_cons.1 hvalid
      have hserve : store.serve (.ofSwept store relpath) = (sweepOne store relpath, .ok ()) := by
        unfold Store.serve Request.run Request.ofSwept sweepOne
        dsimp only
        rw [Store.beyond_path hfirst]
        split <;> rfl
      have hlater := ih hrest (sweepOne store relpath)
      rw [ofSwept_congr (sweepOne_root store relpath)] at hlater
      rw [List.map_cons, Request.served_cons, hserve, sweep_cons]
      exact hlater

-- ===================================================== commits

/-- The index does not matter for where blobs are moved. -/
theorem moveAll_index (store : Store) (index : Index) (blobs : List (String × Bytes)) :
    moveAll { store with index } blobs
      = ({ (moveAll store blobs).1 with index }, (moveAll store blobs).2) := by
  unfold moveAll
  induction blobs generalizing store with
  | nil => rfl
  | cons blob rest ih =>
      have hroot : ({ store with index } : Store).filesRoot = store.filesRoot := rfl
      rw [inTurn, inTurn]
      unfold move at ih ⊢
      dsimp only
      rw [hroot]
      cases reach (Path.join store.filesRoot blob.1)
          (store.files.moveInto (Store.pieces blob.1) blob.2) with
      | ok files => exact ih { store with files }
      | error cause => rfl

/-- A commit without changes leaves the store alone. -/
theorem store_of_idle (hchanges : tx.hasChanges = false) (store : Store) :
    (tx.commit store).1 = store := by
  unfold commit publish
  rw [hchanges, removals_eq_nil hchanges]
  cases tx.view <;> rfl

/-- The files that a commit leaves whose staging is refused. -/
theorem files_of_unstaged {e : StoreError} (hchanges : tx.hasChanges = true)
    (hstage : stageAll store tx.staged = (after, .error e)) :
    (tx.commit store).1.files = after.files := by
  unfold commit publish
  rw [hchanges, hstage]
  rfl

/-- The files that it leaves otherwise. -/
theorem files_of_staged {ready : Store} (hchanges : tx.hasChanges = true)
    (hstage : stageAll store tx.staged = (ready, .ok ()))
    (hmove : moveAll ready tx.staged = (after, answer)) :
    (tx.commit store).1.files
      = (if tx.view.isSome = true ∧ answer = .ok () then sweep after tx.removals
          else after).files := by
  unfold commit publish
  rw [hchanges, hstage]
  dsimp only
  cases hview : tx.view with
  | none =>
      simp only [Bool.not_true, Bool.false_eq_true, ↓reduceIte, Option.isSome_none, false_and]
      rw [moveAll_index, hmove]
      cases answer <;> rfl
  | some view =>
      simp only [Bool.not_true, Bool.false_eq_true, ↓reduceIte, Option.isSome_some, true_and]
      rw [hmove]
      cases answer with
      | ok _ => rfl
      | error e => rfl

/-- Once all is staged, what is asked for further leaves the files that the
commit leaves. -/
theorem files_of_ready {ready ready' : Store} (hpends : tx.Pends) (hchanges : tx.hasChanges = true)
    (hshown : ∀ blob ∈ tx.staged, Shown hidden (Store.pieces blob.1))
    (hdistinct : tx.staged.Pairwise fun a b =>
      scratchPlace (scratches pick) a.1 ≠ scratchPlace (scratches pick) b.1)
    (hstage : stageAll store tx.staged = (ready, .ok ()))
    (hbeside : Beside (scratches pick) hidden tx.staged ready ready')
    (hhoused : ∀ blob ∈ tx.staged, Housed ready' blob.1) :
    (served Store.serve ready' (scratchesOf pick ready' tx.staged)
        (tx.staged.map (Request.ofMoved pick ready')
          ++ if tx.view.isSome then tx.removals.map (Request.ofSwept store) else [])).files
      = (tx.commit store).1.files := by
  cases hmove : moveScratch (scratches pick) ready' tx.staged with
  | mk after' moved =>
      obtain ⟨left, answer⟩ := moved
      obtain ⟨done, after, hsplit, -, hbeside', hanswer, hmoved⟩ :=
        moveScratch_spec hpends.staged hshown hdistinct hbeside hmove
      have hmoves := hmoved (faultless_scratches pick _)
      obtain ⟨hserved, hrefused⟩ := served_moving hshown hdistinct hbeside
        (fun blob hblob => ⟨hpends.staged blob hblob, hhoused blob hblob⟩) hmove
        (if tx.view.isSome then tx.removals.map (Request.ofSwept store) else [])
      rw [files_of_staged hchanges hstage hmoves]
      cases answer with
      | error e =>
          rw [hsplit] at hdistinct
          rw [hrefused nofun, if_neg (by simp),
            hbeside'.discard (List.pairwise_append.1 hdistinct).2.1]
      | ok _ =>
          obtain rfl := hanswer.1 rfl
          have hroot : after.root = store.root := by
            rw [moveAll_eq hmoves, stageAll_eq hstage]
          have hswept := served_sweeping hpends.removals after
          rw [ofSwept_congr (filesRoot_congr hroot)] at hswept
          rw [hserved rfl, hbeside'.eq]
          cases hview : tx.view with
          | none => rfl
          | some view =>
              simp only [Option.isSome_some, ↓reduceIte, true_and]
              rw [hswept]

/-- Where the names of temporary files are new, what a commit asks for leaves
the files that the commit leaves. -/
theorem files_of_requests (hpends : tx.Pends)
    (hfresh : Fresh (scratches pick) tx.staged store) :
    (served Store.serve store [] (tx.requests pick store)).files = (tx.commit store).1.files := by
  unfold requests
  cases hchanges : tx.hasChanges with
  | false =>
      rw [store_of_idle hchanges, staged_eq_nil hchanges, removals_eq_nil hchanges]
      cases tx.view <;> rfl
  | true =>
      have hstaging := hfresh.staging hpends
      cases hstage : stageScratch (scratches pick) store [] tx.staged with
      | mk ready' staged =>
          obtain ⟨held, answer⟩ := staged
          obtain ⟨front, -, hbeside, hheld, hok, hall⟩ :=
            stageScratch_spec hstaging (beside_self store) hstage
          rw [List.nil_append] at hheld hok
          have hstaged := hall (faultless_scratches pick _)
          obtain ⟨hserved, hrefused⟩ := served_staging hstaging (beside_self store) nofun hstage
            (tx.staged.map (Request.ofMoved pick store)
              ++ if tx.view.isSome then tx.removals.map (Request.ofSwept store) else [])
          rw [← List.append_assoc, show scratchesOf pick store [] = [] from rfl]
            at hserved hrefused
          cases answer with
          | error e =>
              rw [hrefused nofun, files_of_unstaged hchanges hstaged,
                hbeside.discard (hfresh.distinct.sublist hheld.sublist)]
          | ok _ =>
              obtain ⟨rfl, -⟩ := hok rfl
              obtain ⟨hready, hhoused⟩ := hserved rfl
              have hroot : ready'.root = store.root := by
                rw [hbeside.frame, stageAll_eq (Prod.eta (stageAll store front)).symm]
              rw [hready, ← ofMoved_congr hroot]
              exact files_of_ready hpends hchanges hstaging.shown hfresh.distinct hstaged hbeside
                hhoused

end Transaction

end Depot
