/-
Confinement to the files directory. A commit is a list of requests to the
operating system (`Transaction.requests`), each for the path of a relpath
that was accepted or of a temporary file beside it, so it changes the disk
as it changes the store (`Keeps.commit`). No other step asks for anything:
any run on a store that was opened on a machine changes the machine below
the files directory only, and leaves it as if the store had been put back
on its disk (`blobs_confined`).
-/
import Depot.Proofs.CommandLine.Requests
import Depot.Proofs.Store.Shelf

namespace Depot

open Files Files.Tree Text

namespace Transaction

variable {pick : String → ScratchName} {tx : Transaction} {store : Store}

/-- A commit leaves a store where it is. -/
theorem commit_where (tx : Transaction) (store : Store) :
    (tx.commit store).1.root = store.root ∧ (tx.commit store).1.cwd = store.cwd := by
  cases hchanges : tx.hasChanges with
  | false =>
      rw [store_of_idle hchanges]
      exact ⟨rfl, rfl⟩
  | true =>
      unfold commit publish
      rw [hchanges]
      cases hstage : stageAll store tx.staged with
      | mk ready answer =>
          obtain ⟨files, rfl⟩ : ∃ files, ready = { store with files } := ⟨_, stageAll_eq hstage⟩
          cases answer with
          | error e => exact ⟨rfl, rfl⟩
          | ok _ =>
              dsimp only
              cases hview : tx.view with
              | none =>
                  simp only [Option.isSome_none, Bool.false_eq_true, ↓reduceIte, Bool.not_true]
                  generalize tx.overlay _ = index
                  cases hmove : moveAll { store with index, files } tx.staged with
                  | mk after answer =>
                      rw [moveAll_eq hmove]
                      cases answer <;> exact ⟨rfl, rfl⟩
              | some view =>
                  simp only [Option.isSome_some, Bool.false_eq_true, ↓reduceIte, Bool.not_true]
                  cases hmove : moveAll { store with files } tx.staged with
                  | mk after answer =>
                      rw [moveAll_eq hmove]
                      cases answer <;> exact ⟨rfl, rfl⟩

/-- Where no file is named, none is looked for. -/
theorem lookups_invalid {relpath : String} (hpends : tx.Pends)
    (hvalid : Relpath.isValid relpath = false) :
    tx.hasBlob store relpath = false
      ∧ tx.getBlob store relpath = .error (.invalidRelpath relpath)
      ∧ tx.blobSize store relpath = .error (.invalidRelpath relpath) := by
  have hpending : tx.blobs[relpath]? = none := by
    cases hblob : tx.blobs[relpath]? with
    | none => rfl
    | some content =>
        have hnamed := hpends relpath content hblob
        rw [hvalid] at hnamed
        cases hnamed
  have hcommitted : tx.isCommitted store relpath = .error (.invalidRelpath relpath) := by
    unfold isCommitted Store.blobPath
    rw [hvalid]
    rfl
  unfold hasBlob getBlob blobSize onDisk
  rw [hpending, hcommitted]
  exact ⟨rfl, rfl, rfl⟩

end Transaction

namespace Machine

variable {m m' : Machine} {place : Place} {store after : Store} {tx : Transaction}
  {pick : String → ScratchName}

-- ===================================================== commits

/-- The requests that a machine is made of those that a commit wants. -/
def asked (m : Machine) (requests : List Request) : List Request :=
  Request.asked serve m [] requests

/-- Of a store, the disk has its files only. -/
theorem Keeps.congr (h : m.Keeps place store) (hroot : after.root = store.root)
    (hfiles : after.files = store.files) (hcwd : after.cwd = store.cwd) :
    m.Keeps place after where
  walk := by
    rw [Transaction.filesRoot_congr hroot]
    exact h.walk
  nested := by
    rw [hfiles]
    exact h.nested
  cwd := hcwd.trans h.cwd

theorem serveEach_frame (store : Store) (requests : List Request) :
    Request.serveEach Store.serve store requests
      = { store with files := (Request.serveEach Store.serve store requests).files } := by
  induction requests generalizing store with
  | nil => rfl
  | cons request rest ih => exact ih (store.serve request).1

/-- A commit changes the disk as it changes the store, and nothing outside of
the files directory. -/
theorem Keeps.commit (h : m.Keeps place store) (hpends : tx.Pends)
    (hfresh : Transaction.Fresh (Transaction.scratches pick) tx.staged store) :
    (m.serveEach (m.asked (tx.requests pick store))).Keeps place (tx.commit store).1
      ∧ Confined place m (m.serveEach (m.asked (tx.requests pick store))) := by
  have hasked : m.asked (tx.requests pick store)
      = Request.asked Store.serve store [] (tx.requests pick store) :=
    h.asked (Transaction.below_requests hpends) []
  have hbelow : ∀ r ∈ m.asked (tx.requests pick store), r.Below store.filesRoot :=
    Request.below_asked (Transaction.below_requests hpends) (List.forall_mem_nil _)
  obtain ⟨hkeeps, hconfined⟩ := h.serveEach hbelow
  obtain ⟨hroot, hcwd⟩ := Transaction.commit_where tx store
  refine ⟨hkeeps.congr ?_ ?_ ?_, hconfined⟩
  · rw [hroot, serveEach_frame]
  · rw [hasked]
    exact (Transaction.files_of_requests hpends hfresh).symm
  · rw [hcwd, serveEach_frame]

end Machine

-- ===================================================== steps

namespace Site

variable {s t : Site} {who : Nat} {a : Action} {answer : Except StoreError UInt64}

/-- The transaction that a step commits, if it commits one. -/
def committing? (s : Site) (who : Nat) : Action → Option Transaction
  | .commit => s.opened who
  | .restart true => (s.opened who).filter (·.writable)
  | _ => none

/-- What a step asks of the operating system if nothing is refused. -/
def requests (pick : String → ScratchName) (s : Site) (who : Nat) (a : Action) : List Request :=
  match s.committing? who a with
  | some tx => tx.requests pick s.store
  | none => []

/-- What a step can come to ask for, wherever it fails: what it wants, and that
the temporary files go which it wants to create. -/
def MayAsk (pick : String → ScratchName) (s : Site) (who : Nat) (a : Action) (r : Request) : Prop :=
  r ∈ s.requests pick who a ∨ ∃ path, .create path ∈ s.requests pick who a ∧ r = .remove path

/-- The names that are picked for temporary files in a step are new. -/
def Picks (pick : String → ScratchName) (s : Site) (who : Nat) (a : Action) : Prop :=
  match s.committing? who a with
  | some tx => Transaction.Fresh (Transaction.scratches pick) tx.staged s.store
  | none => True

instance (pick : String → ScratchName) (s : Site) (who : Nat) (a : Action) :
    Decidable (s.Picks pick who a) := by
  unfold Picks
  split <;> infer_instance

/-- The store that a step leaves. -/
def storeAfter (s : Site) (who : Nat) (a : Action) : Store :=
  match s.committing? who a with
  | some tx => (tx.commit s.store).1
  | none => s.store

/-- What is pending anywhere names files below the files directory. -/
def AllPend (s : Site) : Prop := ∀ i tx, s.opened i = some tx → tx.Pends

theorem AllPend.settle (hs : s.AllPend) (store : Store) {tx : Option Transaction}
    (htx : ∀ u, tx = some u → u.Pends) : (s.settle store who tx).AllPend := by
  intro i u hu
  by_cases hi : i = who
  · subst hi
    rw [settle_opened_self] at hu
    exact htx u hu
  · rw [settle_opened_of_ne _ hi] at hu
    exact hs i u hu

theorem pends_ended (tx : Transaction) (n : UInt64) : (tx.ended n).Pends :=
  fun relpath content h => by simp [Transaction.ended] at h

theorem pends_start {store : Store} {writable : Bool} {fault : Option IndexFault}
    {tx : Transaction} (h : Transaction.start store writable fault = .ok tx) : tx.Pends := by
  obtain ⟨-, n, -, rfl⟩ := Transaction.start_eq_ok h
  exact pends_fresh store n writable

theorem pends_startOver {tx : Transaction} (h : tx.Pends) (store : Store) (writable : Bool)
    (fault : Option IndexFault) : (tx.startOver store writable fault).1.Pends := by
  unfold Transaction.startOver
  split
  · next fresh hstart => exact pends_start hstart
  · -- nothing has begun, and it goes on as it was
    exact h

theorem pends_commit {tx : Transaction} (h : tx.Pends) (store : Store) :
    (tx.commit store).2.1.Pends := by
  unfold Transaction.commit
  split
  · exact h
  · exact pends_ended tx _

theorem restartAsWrite_spec {tx : Transaction} (h : tx.Pends) (store : Store) :
    (tx.restartAsWrite store).2.1.Pends ∧ (tx.restartAsWrite store).1
      = if tx.writable then (tx.commit store).1 else store := by
  unfold Transaction.restartAsWrite
  split
  · have hcommit := pends_commit h store
    split
    · next heq =>
      rw [heq] at hcommit ⊢
      exact ⟨hcommit, rfl⟩
    · next after left serial heq =>
      rw [heq] at hcommit ⊢
      exact ⟨pends_startOver hcommit after true none, rfl⟩
  · exact ⟨pends_startOver (pends_ended tx tx.serial) store true none, rfl⟩

theorem AllPend.committing (hs : s.AllPend) {tx : Transaction}
    (h : s.committing? who a = some tx) : tx.Pends := by
  unfold committing? at h
  split at h
  · exact hs who tx h
  · exact hs who tx (Option.eq_some_of_filter_eq_some h)
  · cases h

/-- Nothing is asked for outside of the files directory. -/
theorem AllPend.below (hs : s.AllPend) {pick : String → ScratchName} {r : Request}
    (h : s.MayAsk pick who a r) : r.Below s.store.filesRoot := by
  have hall : ∀ r ∈ s.requests pick who a, r.Below s.store.filesRoot := by
    unfold requests
    split
    · next tx hcommitting => exact Transaction.below_requests (hs.committing hcommitting)
    · exact nofun
  rcases h with hr | ⟨path, hpath, rfl⟩
  · exact hall r hr
  · exact (hall _ hpath).1

/-- A step changes the store only by a commit, and one transaction at
most. -/
theorem AllPend.act (hs : s.AllPend) (h : s.act who a = some (t, answer)) :
    t.AllPend ∧ t.store = s.storeAfter who a := by
  unfold Site.act at h
  unfold storeAfter
  cases hopen : s.opened who with
  | none =>
      rw [hopen] at h
      cases a with
      | begin writable =>
          dsimp only at h
          split at h
          · cases h
          · split at h
            · next tx hstart =>
              cases h
              exact ⟨hs.settle _ fun u hu => Option.some.inj hu ▸ pends_start hstart, rfl⟩
            · cases h
              exact ⟨hs, rfl⟩
      | edit e => cases h
      | commit => cases h
      | rollback => cases h
      | drop => cases h
      | restart writable => cases writable <;> cases h
  | some tx =>
      have hpends := hs who tx hopen
      rw [hopen] at h
      cases a with
      | begin writable => cases h
      | edit e =>
          dsimp only at h
          split at h
          · next edited hedit =>
            cases h
            exact ⟨hs.settle _ fun u hu => Option.some.inj hu ▸ pends_edit hpends hedit, rfl⟩
          · cases h
            exact ⟨hs, rfl⟩
      | commit =>
          cases h
          unfold committing?
          rw [hopen]
          exact ⟨hs.settle _ nofun, rfl⟩
      | rollback =>
          cases h
          exact ⟨hs.settle _ nofun, rfl⟩
      | drop =>
          cases h
          exact ⟨hs.settle _ nofun, rfl⟩
      | restart writable =>
          cases writable with
          | false =>
              cases h
              exact ⟨hs.settle _ fun u hu => Option.some.inj hu ▸
                pends_startOver (pends_ended tx tx.serial) s.store false none, rfl⟩
          | true =>
              dsimp only at h
              split at h
              · cases h
              · cases h
                obtain ⟨hafter, hstore⟩ := restartAsWrite_spec hpends s.store
                refine ⟨hs.settle _ fun u hu => Option.some.inj hu ▸ hafter, ?_⟩
                rw [settle_store, hstore]
                unfold committing?
                rw [hopen]
                simp only [Option.filter_some]
                split <;> rfl

end Site

namespace Machine

variable {m m' : Machine} {place : Place} {s t : Site} {pick : String → ScratchName}

-- ===================================================== runs

/-- What a step asks for changes the disk as the step changes the store. -/
theorem Keeps.requests (h : m.Keeps place s.store) (hs : s.AllPend) {who : Nat} {a : Action}
    (hpicks : s.Picks pick who a) :
    (m.serveEach (m.asked (s.requests pick who a))).Keeps place (s.storeAfter who a)
      ∧ Confined place m (m.serveEach (m.asked (s.requests pick who a))) := by
  unfold Site.Picks at hpicks
  unfold Site.requests Site.storeAfter
  cases hcommitting : s.committing? who a with
  | none => exact ⟨h, .refl place m⟩
  | some tx =>
      rw [hcommitting] at hpicks
      exact h.commit (hs.committing hcommitting) hpicks

/-- The machine and the site that demands lead to, if all of them are
possible: what each step asks of the machine is served on the way. With each
demand there are the names that are picked for temporary files, which have
to be new. -/
def follow (m : Machine) (s : Site) :
    List (Nat × Action × (String → ScratchName)) → Option (Machine × Site)
  | [] => some (m, s)
  | (who, a, pick) :: rest =>
      match s.act who a with
      | none => none
      | some (t, _) =>
          if s.Picks pick who a then
            (m.serveEach (m.asked (s.requests pick who a))).follow t rest
          else none

/-- So do all steps of a run. -/
theorem Keeps.follow {demands : List (Nat × Action × (String → ScratchName))}
    (h : m.Keeps place s.store) (hs : s.AllPend) (hrun : m.follow s demands = some (m', t)) :
    m'.Keeps place t.store ∧ Confined place m m' ∧ t.AllPend := by
  -- that the store is on the disk and what is pending is valid is kept by each step
  induction demands generalizing m s with
  | nil =>
      cases hrun
      exact ⟨h, .refl place _, hs⟩
  | cons demand rest ih =>
      obtain ⟨who, a, pick⟩ := demand
      rw [Machine.follow] at hrun
      split at hrun
      · cases hrun
      · next u answer hact =>
        split at hrun
        · next hpicks =>
          obtain ⟨hpend, hstore⟩ := hs.act hact
          obtain ⟨hkeeps, hstep⟩ := h.requests hs hpicks
          rw [← hstore] at hkeeps
          obtain ⟨hkeeps', hconfined, hpend'⟩ := ih hkeeps hpend hrun
          exact ⟨hkeeps', hstep.trans hconfined, hpend'⟩
        · cases hrun

/-- But for the files directory itself, the disk looks as if the store had
been put back on it. -/
theorem Keeps.node?_keep (h : m'.Keeps place store) (hconfined : Confined place m m') {q : Place}
    (hq : q ≠ filesPlace place) :
    m'.disk.node? q = (m.keep { place, store }).disk.node? q := by
  by_cases hunder : filesPlace place <+: q
  · obtain ⟨rest, rfl⟩ := hunder
    have hrest : rest ≠ [] := by
      intro hnil
      rw [hnil, List.append_nil] at hq
      exact hq rfl
    rw [h.nested, node?_of_ne hrest, node?_of_ne (by simp [hrest])]
    exact (getElem?_graft_below m.disk _ store.files hrest).symm
  · rw [hconfined.outside q hunder]
    by_cases hnil : q = []
    · rw [hnil, node?_nil, node?_nil]
    · rw [node?_of_ne hnil, node?_of_ne hnil]
      exact (getElem?_graft_outside m.disk _ store.files hunder).symm

-- ===================================================== stores that are opened

/-- The path of the files directory leads to a place of its name. -/
theorem filesPlace_dropLast {disk : Tree} {dir : String} {files : Place}
    (hwalk : disk.walk (m.pieces (Path.join dir Store.filesDir)) = .ok files) :
    filesPlace files.dropLast = files := by
  obtain ⟨above, habove⟩ := Store.split_filesRoot { root := dir }
  obtain ⟨start, hstart⟩ := Path.split_join m.env.cwd (Path.join dir Store.filesDir)
  have hends : m.pieces (Path.join dir Store.filesDir) = start ++ above ++ [Store.filesDir] := by
    rw [List.append_assoc, ← habove]
    exact hstart
  rw [hends, walk_append] at hwalk
  cases hdir : disk.walk (start ++ above) with
  | error e =>
      rw [hdir] at hwalk
      cases hwalk
  | ok place =>
      rw [hdir] at hwalk
      obtain ⟨-, rfl, -⟩ := step_ok hwalk (by decide)
      rw [names_singleton (by decide), List.dropLast_concat]
      rfl

theorem keeps_mount {dir : String}
    (hwalk : m.disk.walk (m.pieces (Path.join dir Store.filesDir)) = .ok (filesPlace place))
    (hdir : m.disk.node? (filesPlace place) = some .dir) :
    m.Keeps place (m.mount dir place).store where
  walk := hwalk
  nested := nested_below hdir
  cwd := rfl

/-- A store that is opened is on the disk of the machine. -/
theorem keeps_openStore {dir : String} {mounted : Mounted}
    (h : m.openStore dir = (m', .ok mounted)) : m'.Keeps mounted.place mounted.store := by
  unfold openStore at h
  dsimp only at h
  split at h
  · cases h
  · split at h
    · cases h
    · next disk files hmade =>
      have hne : m.pieces (Path.join dir Store.filesDir) ≠ [] := split_ne_nil _ _
      obtain ⟨hdir, hwalk⟩ := walk_of_makeDirs hne hmade
      have hfiles := filesPlace_dropLast hwalk
      rw [← hfiles] at hdir hwalk
      unfold attach at h
      dsimp only at h
      split at h
      · cases h
      · split at h
        · next hnode =>
          cases h
          -- the index file is put where nothing was
          have hkept : ∀ q, disk.node? q = some .dir →
              (disk.put (indexPlace files.dropLast) []).node? q = some .dir := by
            intro q hq
            rw [node?_put (by simp [indexPlace]), if_neg]
            · exact hq
            · intro heq
              rw [heq, hnode] at hq
              cases hq
          exact keeps_mount (walk_mono hkept hdir hwalk) (hkept _ hdir)
        · cases h
          exact keeps_mount hwalk hdir
        · cases h
        · cases h

-- ===================================================== confinement

/-- The path of a blob leads below the files directory, where the machine
finds what the store has. -/
theorem Keeps.finds (h : m.Keeps place store) {relpath path : String}
    (hpath : store.blobPath relpath = .ok path) :
    (∀ q, m.disk.walk (m.pieces path) = .ok q → q = filesPlace place ++ Store.place relpath)
      ∧ m.disk.isFile (m.pieces path) = store.files.isFile (Store.pieces relpath)
      ∧ m.disk.read (m.pieces path) = store.files.read (Store.pieces relpath)
      ∧ m.disk.size (m.pieces path) = store.files.size (Store.pieces relpath) := by
  unfold Store.blobPath at hpath
  split at hpath
  · next hvalid =>
    cases hpath
    have hup : ".." ∉ Store.pieces relpath := Relpath.up_not_mem hvalid
    rw [m.pieces_path hvalid]
    refine ⟨fun q hq => ?_, h.nested.isFile h.walk hup, h.nested.read h.walk hup,
      h.nested.size h.walk hup⟩
    rw [h.nested.walk h.walk hup] at hq
    obtain ⟨dest, hdest, rfl⟩ : ∃ dest, store.files.walk (Store.pieces relpath) = .ok dest
        ∧ filesPlace place ++ dest = q := by
      cases hwalk : store.files.walk (Store.pieces relpath) with
      | error e =>
          rw [hwalk] at hq
          cases hq
      | ok dest =>
          rw [hwalk] at hq
          exact ⟨dest, rfl, Except.ok.inj hq⟩
    rw [walk_eq hdest hup]
    rfl
  · cases hpath

/-- Path confinement. A relpath is accepted if and only if it is not
empty, has no backslash and no NUL, starts neither with a slash nor with a
point as its first piece, and never goes upwards. Its path has the names
of the files directory and then others; and whatever is done in a run on a
store, also if it is cut off or fails within a step, the machine changes
below the place of the files directory only, and finds there what the store
has. -/
theorem blobs_confined :
    (∀ relpath, Relpath.isValid relpath = true ↔
      relpath ≠ "" ∧ '\\' ∉ relpath.toList ∧ '\x00' ∉ relpath.toList
        ∧ relpath.toList.head? ≠ some '/' ∧ (split '/' relpath).head? ≠ some "."
        ∧ ".." ∉ split '/' relpath)
    ∧ (∀ store relpath, (Store.blobPath store relpath).isOk = Relpath.isValid relpath)
    ∧ (∀ tx relpath content, tx.writable = true →
        (Transaction.setBlob tx relpath content).isOk = Relpath.isValid relpath
          ∧ (tx.deleteBlob relpath).isOk = Relpath.isValid relpath)
    ∧ (∀ store relpath path, Store.blobPath store relpath = .ok path →
        names (split '/' path) = names (split '/' store.filesRoot) ++ Store.place relpath
          ∧ Store.place relpath ≠ [] ∧ ".." ∉ Store.place relpath)
    ∧ ∀ m m' dir mounted demands m'' s, openStore m dir = (m', .ok mounted) →
        m'.follow { store := mounted.store } demands = some (m'', s) →
        m''.disk.walk (m''.pieces s.store.filesRoot) = .ok (filesPlace mounted.place)
          ∧ (∀ q, q ≠ filesPlace mounted.place →
              m''.disk.node? q = (m'.keep { mounted with store := s.store }).disk.node? q)
          ∧ (∀ who a pick part, (∀ r ∈ part, s.MayAsk pick who a r) →
              ∀ q, ¬filesPlace mounted.place <+: q →
                (m''.serveEach part).disk.node? q = m'.disk.node? q)
          ∧ (∀ relpath path, s.store.blobPath relpath = .ok path →
              (∀ q, m''.disk.walk (m''.pieces path) = .ok q →
                  q = filesPlace mounted.place ++ Store.place relpath)
                ∧ m''.disk.isFile (m''.pieces path) = s.store.files.isFile (Store.pieces relpath)
                ∧ m''.disk.read (m''.pieces path) = s.store.files.read (Store.pieces relpath)
                ∧ m''.disk.size (m''.pieces path) = s.store.files.size (Store.pieces relpath))
          ∧ ∀ i tx relpath, s.opened i = some tx → Relpath.isValid relpath = false →
              tx.hasBlob s.store relpath = false
                ∧ tx.getBlob s.store relpath = .error (.invalidRelpath relpath)
                ∧ tx.blobSize s.store relpath = .error (.invalidRelpath relpath) := by
  refine ⟨fun relpath => ?_, fun store relpath => ?_, fun tx relpath content hw => ?_,
    fun store relpath path hpath => ?_, fun m m' dir mounted demands m'' s hopen hrun => ?_⟩
  · rw [Relpath.isValid_iff]
    unfold Path.isAbsolute
    simp only [decide_eq_false_iff_not]
    tauto
  · unfold Store.blobPath
    cases Relpath.isValid relpath <;> rfl
  · unfold Transaction.setBlob Transaction.deleteBlob Transaction.changeBlob
    rw [hw]
    cases Relpath.isValid relpath <;> exact ⟨rfl, rfl⟩
  · unfold Store.blobPath at hpath
    split at hpath
    · next hvalid =>
      cases hpath
      refine ⟨?_, Store.place_ne_nil hvalid, fun hmem => ?_⟩
      · rw [Store.path_eq hvalid, split_slash, names_append]
        rfl
      · exact Relpath.up_not_mem hvalid (List.mem_filter.1 hmem).1
    · cases hpath
  · have hkeeps := keeps_openStore hopen
    obtain ⟨hkeeps', hconfined, hpend⟩ := Keeps.follow (s := { store := mounted.store })
      hkeeps nofun hrun
    refine ⟨hkeeps'.walk, fun q hq => hkeeps'.node?_keep hconfined hq,
      fun who a pick part hpart q hq => ?_, fun relpath path hpath => hkeeps'.finds hpath,
      fun i tx relpath hi hvalid => Transaction.lookups_invalid (hpend i tx hi) hvalid⟩
    obtain ⟨-, hstep⟩ := hkeeps'.serveEach fun r hr => hpend.below (hpart r hr)
    exact (hconfined.trans hstep).outside q hq

/-- Six letters. -/
def sixLetters : ScratchName := ⟨['q', '7', 'W', 'x', '0', 'e'], rfl, List.all_eq_true.1 rfl⟩

/-- The demands for a commit of one blob. -/
def commitOne : List (Nat × Action × (String → ScratchName)) :=
  [(0, .begin true, fun _ => sixLetters), (0, .edit (.setBlob "a//./b" [1]), fun _ => sixLetters),
    (0, .commit, fun _ => sixLetters)]

/-- What a commit on a machine without any files comes to. -/
theorem evaluated_commit :
    (match openStore
        { env := { vars := [], home := none, dataHome := none, cwd := "/" } } "/srv" with
      | (m', .ok mounted) =>
          match m'.follow { store := mounted.store } commitOne with
          | some (m'', _) => decide (mounted.place = ["srv"])
              && m''.disk.isFile (m''.pieces "/srv/+files/a//./b")
          | none => false
      | _ => false) = true := by
  decide +kernel

/-- A blob that is committed is a file below the files directory. -/
theorem blobs_confined_of_commit : ∃ m' mounted m'' s,
    openStore { env := { vars := [], home := none, dataHome := none, cwd := "/" } } "/srv"
        = (m', .ok mounted)
      ∧ m'.follow { store := mounted.store } commitOne = some (m'', s)
      ∧ m''.disk.isFile (m''.pieces "/srv/+files/a//./b") = true
      ∧ ∀ q, ¬["srv", "+files"] <+: q → m''.disk.node? q = m'.disk.node? q := by
  have hchecked := evaluated_commit
  split at hchecked
  · next m' mounted hopen =>
    split at hchecked
    · next m'' s hrun =>
      obtain ⟨hplace, hfile⟩ := Bool.and_eq_true_iff.1 hchecked
      obtain ⟨-, -, hout, -⟩ := blobs_confined.2.2.2.2 _ _ _ _ _ _ _ hopen hrun
      rw [of_decide_eq_true hplace] at hout
      exact ⟨m', mounted, m'', s, hopen, hrun, hfile,
        hout 0 .drop (fun _ => sixLetters) [] nofun⟩
    · cases hchecked
  · cases hchecked

end Machine

end Depot
