/-
Opening a store again. What opening makes is there the next time
(`opened_of_openStore`), so it is opened as before (`Opened.openStore`), or
refused as before (`openStore_refused`); and once another store is put in
its place, it is this one that is opened (`Opened.keep`), as long as no
directory is lost with it.
-/
import Depot.Proofs.CommandLine.Confinement
import Depot.Proofs.Files.Bare
import Depot.Proofs.Files.Made

namespace Depot

open Files Files.Tree Text

namespace Transaction

variable {store : Store}

theorem Stages.bare {relpath : String} {after : Store} {answer : Except StoreError Unit}
    (h : Stages store relpath after answer) (hbare : store.files.Bare) : after.files.Bare := by
  have hmade := hbare.makeDirsFrom [] (parentPieces relpath)
  change (store.files.makeDirs (parentPieces relpath)).1.Bare at hmade
  cases h with
  | refused hdir => exact hbare
  | unmade hdir hmake =>
      rw [hmake] at hmade
      exact hmade
  | cramped hdir hmake hscratch =>
      rw [hmake] at hmade
      exact hmade
  | made hdir hmake hscratch =>
      rw [hmake] at hmade
      exact hmade

theorem bare_stageAll (h : store.files.Bare) (blobs : List (String × Bytes)) :
    (stageAll store blobs).1.files.Bare :=
  inTurn_rel (R := fun a b => a.files.Bare → b.files.Bare) (fun _ => id)
    (fun hab hbc h => hbc (hab h)) (fun blob (_ : blob ∈ blobs) store => (stages store blob).bare)
    store h

theorem bare_move {blob : String × Bytes} (hvalid : Relpath.isValid blob.1 = true)
    (h : store.files.Bare) : (move store blob).1.files.Bare := by
  rcases move_cases store blob with ⟨files, hreach, hmove⟩ | ⟨cause, -, hmove⟩
  · rw [hmove]
    obtain ⟨hfile, -, -, -, rfl⟩ :=
      moveInto_ok (Relpath.up_not_mem hvalid) (reach_eq_ok_iff.1 hreach).2
    exact h.insert (names_ne_nil hfile) _
  · rw [hmove]
    exact h

theorem bare_moveAll {blobs : List (String × Bytes)}
    (hvalid : ∀ blob ∈ blobs, Relpath.isValid blob.1 = true) (h : store.files.Bare) :
    (moveAll store blobs).1.files.Bare :=
  inTurn_rel (R := fun a b => a.files.Bare → b.files.Bare) (fun _ => id)
    (fun hab hbc h => hbc (hab h)) (fun blob hblob _ => bare_move (hvalid blob hblob)) store h

theorem bare_sweep (h : store.files.Bare) (relpaths : List String) :
    (sweep store relpaths).files.Bare := by
  unfold sweep
  dsimp only
  generalize relpaths.filter _ = reached
  generalize store.files = t at h
  induction reached generalizing t with
  | nil => exact h
  | cons relpath rest ih => exact ih _ (h.removeFile (Store.pieces relpath))

/-- No commit puts anything for the top. -/
theorem bare_commit {tx : Transaction} {view : Index} (hview : tx.view = some view)
    (hpends : tx.Pends) (h : store.files.Bare) : (tx.commit store).1.files.Bare := by
  have hstaged := bare_stageAll h tx.staged
  have hmoved : ∀ ready answer, stageAll store tx.staged = (ready, answer) →
      (moveAll ready tx.staged).1.files.Bare := by
    intro ready answer hstage
    rw [hstage] at hstaged
    exact bare_moveAll hpends.staged hstaged
  rcases commit_cases hview store with
    ⟨-, hcommit⟩ | ⟨-, after, e, hrefused, hcommit⟩ | ⟨-, after, ⟨ready, hstage, hmove⟩, hcommit⟩
  · rw [hcommit]
    exact h
  · rw [hcommit]
    rcases hrefused with hstage | ⟨ready, hstage, hmove⟩
    · rwa [hstage] at hstaged
    · have hbare := hmoved ready _ hstage
      rwa [hmove] at hbare
  · rw [hcommit]
    have hbare := hmoved ready _ hstage
    rw [hmove] at hbare
    refine bare_sweep ?_ _
    exact hbare

end Transaction

namespace Machine

variable {m m' : Machine} {dir : String} {mounted : Mounted} {store : Store}

-- ===================================================== stores that are there

/-- A machine on which a store is there already: it is opened without
anything being made for it. -/
structure Opened (m : Machine) (dir : String) (mounted : Mounted) : Prop where
  taken : refusal? (Path.join dir Store.filesDir) = none
  walk : m.disk.walk (m.pieces (Path.join dir Store.filesDir)) = .ok (filesPlace mounted.place)
  files : m.disk.node? (filesPlace mounted.place) = some .dir
  shallow : isTooDeep mounted.place = false
  index : m.disk.node? (indexPlace mounted.place) = some (.file [])
  mounted : m.mount dir mounted.place = mounted

/-- Once its directories are made, a store is opened where they are. -/
theorem openStore_of_made {disk : Tree} {files : Place}
    (hrefusal : refusal? (Path.join dir Store.filesDir) = none)
    (hmade : m.disk.makeDirs (m.pieces (Path.join dir Store.filesDir)) = (disk, .ok files)) :
    m.openStore dir = attach { m with disk } dir files.dropLast := by
  unfold Machine.openStore
  dsimp only
  rw [hrefusal]
  dsimp only
  rw [hmade]

theorem Opened.openStore (h : Opened m dir mounted) : m.openStore dir = (m, .ok mounted) := by
  rw [openStore_of_made h.taken (makeDirs_of_walk h.walk h.files),
    show (filesPlace mounted.place).dropLast = mounted.place from List.dropLast_concat]
  unfold attach
  dsimp only
  rw [if_neg (by simp [h.shallow]), h.index]
  dsimp only
  rw [h.mounted]

/-- What opening makes: directories, and an index file if there is none. -/
theorem openStore_ok (h : m.openStore dir = (m', .ok mounted)) :
    ∃ disk, refusal? (Path.join dir Store.filesDir) = none
      ∧ m.disk.makeDirs (m.pieces (Path.join dir Store.filesDir))
        = (disk, .ok (filesPlace mounted.place))
      ∧ isTooDeep mounted.place = false ∧ m'.mount dir mounted.place = mounted
      ∧ (disk.node? (indexPlace mounted.place) = none
          ∧ m' = { m with
            disk := disk.put (indexPlace mounted.place) []
            indexes := m.indexes.erase mounted.place }
        ∨ disk.node? (indexPlace mounted.place) = some (.file []) ∧ m' = { m with disk }) := by
  unfold Machine.openStore at h
  dsimp only at h
  split at h
  · cases h
  · next htaken =>
    split at h
    · cases h
    · next disk files hmade =>
      have hfiles := filesPlace_dropLast (walk_of_makeDirs (split_ne_nil _ _) hmade).2
      unfold attach at h
      dsimp only at h
      split at h
      · cases h
      · next hshallow =>
        rw [Bool.not_eq_true] at hshallow
        split at h
        · next hnode =>
          cases h
          exact ⟨disk, htaken, by rw [hmade]; exact congrArg _ (congrArg _ hfiles.symm), hshallow,
            rfl, .inl ⟨hnode, rfl⟩⟩
        · next hnode =>
          cases h
          exact ⟨disk, htaken, by rw [hmade]; exact congrArg _ (congrArg _ hfiles.symm), hshallow,
            rfl, .inr ⟨hnode, rfl⟩⟩
        · cases h
        · cases h

theorem node?_putIndex (disk : Tree) (place q : Place) : (disk.put (indexPlace place) []).node? q
      = if q = indexPlace place then some (.file []) else disk.node? q :=
  node?_put (by simp [indexPlace]) [] q

/-- A store that is opened is there then. -/
theorem opened_of_openStore (h : m.openStore dir = (m', .ok mounted)) : Opened m' dir mounted := by
  obtain ⟨disk, htaken, hmade, hshallow, hmount, hnew | hold⟩ := openStore_ok h
  · obtain ⟨hnone, rfl⟩ := hnew
    obtain ⟨hdir, hwalk⟩ := walk_of_makeDirs (split_ne_nil _ _) hmade
    have hput := node?_putIndex disk mounted.place
    have hkept : ∀ q, disk.node? q = some .dir →
        (disk.put (indexPlace mounted.place) []).node? q = some .dir := by
      intro q hq
      rw [hput, if_neg]
      · exact hq
      · intro heq
        rw [heq, hnone] at hq
        cases hq
    exact ⟨htaken, walk_mono hkept hdir hwalk, hkept _ hdir, hshallow, (hput _).trans (if_pos rfl),
      hmount⟩
  · obtain ⟨hnode, rfl⟩ := hold
    obtain ⟨hdir, hwalk⟩ := walk_of_makeDirs (split_ne_nil _ _) hmade
    exact ⟨htaken, hwalk, hdir, hshallow, hnode, hmount⟩

/-- A server directory that is refused is left as it is. -/
theorem attach_refused {place : Place} {e : StoreError}
    (h : m.attach dir place = (m', .error e)) : m' = m := by
  unfold attach at h
  dsimp only at h
  split at h
  · cases h
    rfl
  · split at h <;> cases h
    · rfl
    · rfl

/-- What is refused is refused again. -/
theorem openStore_refused {e : StoreError} (h : m.openStore dir = (m', .error e)) :
    m'.openStore dir = (m', .error e) := by
  cases hrefusal : refusal? (Path.join dir Store.filesDir) with
  | some cause =>
      unfold Machine.openStore at h ⊢
      dsimp only at h ⊢
      rw [hrefusal] at h ⊢
      cases h
      rfl
  | none =>
      cases hmade : m.disk.makeDirs (m.pieces (Path.join dir Store.filesDir)) with
      | mk disk answer =>
          -- the pieces are those of the machine before: only its disk has changed
          have hagain : ∀ m₁ : Machine, m₁ = { m with disk } →
              m₁.disk.makeDirs (m₁.pieces (Path.join dir Store.filesDir)) = (disk, answer) := by
            rintro _ rfl
            exact makeDirs_again hmade
          cases answer with
          | error cause =>
              unfold Machine.openStore at h ⊢
              dsimp only at h ⊢
              rw [hrefusal] at h ⊢
              dsimp only at h ⊢
              rw [hmade] at h
              cases h
              rw [hagain _ rfl]
          | ok files =>
              rw [openStore_of_made hrefusal hmade] at h
              obtain rfl := attach_refused h
              rw [openStore_of_made hrefusal (hagain _ rfl)]
              exact h

theorem Opened.bare (h : Opened m dir mounted) : mounted.store.files.Bare := by
  rw [← h.mounted]
  exact bare_below m.disk _

/-- Where a store is put in place of one that was opened, it is the one that
is there. -/
theorem Opened.keep (h : Opened m dir mounted) (hroot : store.root = mounted.store.root)
    (hcwd : store.cwd = mounted.store.cwd) (hserial : store.index.serial ≠ none)
    (hbare : store.files.Bare)
    (hdirs : Transaction.KeepsDirs mounted.store.files store.files) :
    Opened (m.keep { mounted with store }) dir { mounted with store } := by
  have hmount := h.mounted
  have hfiles : m.disk.below (filesPlace mounted.place) = mounted.store.files := by
    rw [← hmount]
    rfl
  have hnested : Nested m.disk mounted.store.files (filesPlace mounted.place) := by
    rw [← hfiles]
    exact nested_below h.files
  have hfollows := follows_graft hbare h.files
  have hkept := hfollows.dirs hnested hdirs
  refine ⟨h.taken, walk_mono hkept h.files h.walk, hkept _ h.files, h.shallow, ?_, ?_⟩
  · refine (hfollows.outside _ fun hprefix => ?_).trans h.index
    have heq := hprefix.eq_of_length (by simp [filesPlace, indexPlace])
    simp [filesPlace, indexPlace, Store.filesDir, indexFile] at heq
  · unfold Machine.mount Machine.keep
    dsimp only
    rw [below_graft hbare, Std.ExtTreeMap.getElem?_insert_self]
    obtain ⟨root, index, files, cwd⟩ := store
    obtain ⟨records, blobs, serial⟩ := index
    cases serial with
    | none => exact absurd rfl hserial
    | some text =>
        have hdir : dir = mounted.store.root := by
          rw [← hmount]
          rfl
        have hhere : m.env.cwd = mounted.store.cwd := by
          rw [← hmount]
          rfl
        obtain rfl : root = mounted.store.root := hroot
        obtain rfl : cwd = mounted.store.cwd := hcwd
        rw [hdir, hhere]
        rfl

-- ===================================================== stores that are new

/-- A machine that has nothing where a server directory would be opened. -/
def Lacks (m : Machine) (dir : String) : Prop := ∀ mounted, (m.openStore dir).2 = .ok mounted →
  ∀ q, mounted.place <+: q → m.disk.node? q = none

/-- A store without records and blobs, in which there are directories at
most. -/
structure New (store : Store) : Prop where
  index : store.index = {}
  dirs : ∀ q node, store.files.node? q = some node → node = .dir
  closed : store.files.Closed

/-- Below the files directory a store has what the disk has there. -/
theorem node?_openStore (h : m.openStore dir = (m', .ok mounted)) :
    ∃ disk, m.disk.makeDirs (m.pieces (Path.join dir Store.filesDir))
        = (disk, .ok (filesPlace mounted.place))
      ∧ ∀ q, mounted.store.files.node? q = disk.node? (filesPlace mounted.place ++ q) := by
  have hopened := opened_of_openStore h
  have hfiles : mounted.store.files = m'.disk.below (filesPlace mounted.place) := by
    conv => lhs; rw [← hopened.mounted]
    rfl
  have hnested := nested_below hopened.files
  rw [← hfiles] at hnested
  obtain ⟨disk, -, hmade, -, -, hcases⟩ := openStore_ok h
  refine ⟨disk, hmade, fun q => ?_⟩
  rw [← hnested]
  rcases hcases with ⟨-, rfl⟩ | ⟨-, rfl⟩
  · refine (node?_putIndex disk mounted.place _).trans (if_neg fun heq => ?_)
    have hname := congrArg (·[mounted.place.length]?) heq
    simp [filesPlace, indexPlace, Store.filesDir, indexFile] at hname
  · rfl

/-- Where there was no server directory, a store is new. -/
theorem new_of_lacks (habsent : m.Lacks dir) (h : m.openStore dir = (m', .ok mounted)) :
    New mounted.store := by
  have hlacks := habsent mounted (by rw [h])
  obtain ⟨disk, hmade, hnode⟩ := node?_openStore h
  have hbuilt := built_makeDirsFrom m.disk [] (m.pieces (Path.join dir Store.filesDir))
  rw [show m.disk.makeDirsFrom [] _ = (disk, .ok (filesPlace mounted.place)) from hmade] at hbuilt
  have hbelow : ∀ q, disk.node? (mounted.place ++ q) ≠ none →
      disk.node? (mounted.place ++ q) = some .dir
        ∧ ∃ above name, mounted.place ++ q = above ++ [name] ∧ name.utf8ByteSize ≤ maxName
          ∧ disk.node? above = some .dir := by
    intro q hq
    have hnone := hlacks _ (List.prefix_append mounted.place q)
    rcases hbuilt (mounted.place ++ q) with hsame | ⟨-, hdir, hnew⟩
    · exact absurd (hsame.trans hnone) hq
    · exact ⟨hdir, hnew⟩
  have hfiles : ∀ q, filesPlace mounted.place ++ q = mounted.place ++ (Store.filesDir :: q) := by
    intro q
    rw [filesPlace, List.append_assoc]
    rfl
  have hchild : ∀ q name, mounted.store.files.node? (q ++ [name]) ≠ none →
      name.utf8ByteSize ≤ maxName ∧ mounted.store.files.node? q = some .dir := by
    intro q name hsome
    rw [hnode, hfiles] at hsome
    obtain ⟨-, above, name', heq, hlen, habove⟩ := hbelow _ hsome
    rw [← hfiles, ← List.append_assoc] at heq
    obtain ⟨rfl, hname⟩ := List.append_inj' heq rfl
    cases hname
    exact ⟨hlen, (hnode q).trans habove⟩
  refine ⟨?_, fun q node hq => ?_, fun q name hsome => (hchild q name hsome).2,
    fun q name hsome => (hchild q name hsome).1⟩
  · obtain ⟨disk', -, hmade', -, hmount, hcases⟩ := openStore_ok h
    obtain rfl : disk = disk' := congrArg Prod.fst (hmade.symm.trans hmade')
    have hindex : mounted.store.index = (m'.mount dir mounted.place).store.index := by rw [hmount]
    rw [hindex]
    rcases hcases with ⟨-, rfl⟩ | ⟨hfile, -⟩
    · unfold Machine.mount
      dsimp only
      rw [Std.ExtTreeMap.getElem?_erase_self]
      rfl
    · -- there was no index file, and no directory is one
      obtain ⟨hdir, -⟩ := hbelow [indexFile] (by
        rw [← indexPlace, hfile]
        exact Option.some_ne_none _)
      rw [← indexPlace, hfile] at hdir
      cases hdir
  · rw [hnode, hfiles] at hq
    have hdir := (hbelow _ (by rw [hq]; exact Option.some_ne_none _)).1
    rw [hq] at hdir
    exact Option.some.inj hdir

end Machine

end Depot
