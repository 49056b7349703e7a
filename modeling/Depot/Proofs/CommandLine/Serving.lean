/-
What a store asks of the operating system. Its files are part of a disk,
on which they are found by paths that start at the working directory:
`Machine.serve` is what the operating system does, on the whole disk, with
a request for such a path, and `Store.serve` is what that comes to below
the files directory. A path that leads to the files directory, or goes on
from there without a step upwards, is `Path.Under` it; a request for such
paths changes the disk as it changes the store, is refused on both or on
neither (`Keeps.serve`), and changes nothing outside of the directory. So
do requests one after the other (`Keeps.serveEach`).
-/
import Depot.CommandLine.Machine
import Depot.Proofs.Files.Scratch
import Depot.Proofs.Relpath
import Depot.Proofs.Store.Placing

namespace Depot

open Files Files.Tree Text

-- ===================================================== paths that go on

namespace Path

variable {base path : String}

/-- The pieces with which a path goes on behind those of another. -/
def beyond (base path : String) : List String := (split '/' path).drop (split '/' base).length

/-- A path that is another, or goes on from it without a step upwards. -/
structure Under (base path : String) : Prop where
  goes : path = base ∨ ∃ rest, path = base ++ "/" ++ rest
  up : ".." ∉ beyond base path

theorem beyond_self (base : String) : beyond base base = [] := List.drop_length

theorem beyond_slash (base rest : String) : beyond base (base ++ "/" ++ rest) = split '/' rest := by
  unfold beyond
  rw [split_slash, List.drop_left]

end Path

-- ===================================================== paths of blobs

namespace Store

variable {store : Store} {relpath : String}

/-- The path of the files directory ends in its name. -/
theorem split_filesRoot (store : Store) :
    ∃ above, split '/' store.filesRoot = above ++ [filesDir] := by
  obtain ⟨above, habove⟩ := Path.split_join store.root filesDir
  exact ⟨above, habove⟩

theorem filesRoot_ends (store : Store) :
    store.filesRoot ≠ "" ∧ store.filesRoot.toList.getLast? ≠ some '/' := by
  unfold filesRoot filesDir
  rcases Path.join_cases store.root "+files" with heq | ⟨lead, heq⟩
  · rw [heq]
    decide
  · rw [heq, Ne, ← String.toList_inj, String.toList_append, String.toList_append]
    refine ⟨by simp, ?_⟩
    rw [List.getLast?_append, show "+files".toList.getLast? = some 's' from rfl]
    exact (by decide : some 's' ≠ some '/')

/-- The path of a blob goes on from the files directory. -/
theorem path_eq (h : Relpath.isValid relpath = true) :
    Path.join store.filesRoot relpath = store.filesRoot ++ "/" ++ relpath := by
  obtain ⟨hne, hlast⟩ := store.filesRoot_ends
  exact Path.join_relative hne hlast (Relpath.isValid_iff.1 h).2.1

/-- Some piece of it is a name. -/
theorem exists_name (h : Relpath.isValid relpath = true) :
    ∃ name ∈ pieces relpath, Path.isIdle name = false := by
  obtain ⟨hne, habs, hhere, -, -⟩ := Relpath.isValid_iff.1 h
  have hempty : (split '/' relpath).head? ≠ some "" := by
    rw [Ne, Path.head?_split_eq_empty]
    simp [hne, habs]
  unfold pieces
  cases hsplit : split '/' relpath with
  | nil => exact absurd hsplit (split_ne_nil _ _)
  | cons name rest =>
      rw [hsplit] at hempty hhere
      refine ⟨name, List.mem_cons_self .., ?_⟩
      unfold Path.isIdle
      simp only [List.head?_cons, ne_eq, Option.some.injEq] at hempty hhere
      simp [hempty, hhere]

theorem place_ne_nil (h : Relpath.isValid relpath = true) : place relpath ≠ [] := by
  obtain ⟨name, hmem, hname⟩ := exists_name h
  intro hnil
  have hin : name ∈ place relpath := List.mem_filter.2 ⟨hmem, by simp [hname]⟩
  rw [hnil] at hin
  cases hin

/-- The directory of a blob is the files directory, or goes on from it. -/
theorem parent_eq (h : Relpath.isValid relpath = true) :
    Path.parent (Path.join store.filesRoot relpath)
      = if Transaction.parentPieces relpath = [] then store.filesRoot
        else store.filesRoot ++ "/" ++ joinWith '/' (Transaction.parentPieces relpath) := by
  obtain ⟨above, habove⟩ := store.split_filesRoot
  obtain ⟨name, hmem, hname⟩ := exists_name h
  have hpath : split '/' (Path.join store.filesRoot relpath)
      = above ++ filesDir :: split '/' relpath := by
    rw [path_eq h, split_slash, habove, List.append_assoc, List.singleton_append]
  have hroot : store.filesRoot = joinWith '/' (above ++ [filesDir]) := by
    rw [← habove, joinWith_split]
  rw [Path.parent_eq hpath (by decide) hmem hname]
  change joinWith '/' (above ++ filesDir :: Transaction.parentPieces relpath) = _
  split
  · next hnil => rw [hnil, ← hroot]
  · next hne =>
    rw [hroot, ← joinWith_append (by simp) hne, List.append_assoc, List.singleton_append]

theorem split_parentPieces (h : Transaction.parentPieces relpath ≠ []) :
    split '/' (joinWith '/' (Transaction.parentPieces relpath))
      = Transaction.parentPieces relpath :=
  split_joinWith h fun _ hpiece hslash =>
    (mem_of_mem_split (Transaction.mem_of_mem_parentPieces hpiece) hslash).2 rfl

theorem beyond_path (h : Relpath.isValid relpath = true) :
    Path.beyond store.filesRoot (Path.join store.filesRoot relpath) = pieces relpath := by
  rw [path_eq h, Path.beyond_slash]
  rfl

theorem under_path (h : Relpath.isValid relpath = true) :
    Path.Under store.filesRoot (Path.join store.filesRoot relpath) where
  goes := .inr ⟨relpath, path_eq h⟩
  up := by
    rw [beyond_path h]
    exact Relpath.up_not_mem h

theorem beyond_parent (store : Store) (h : Relpath.isValid relpath = true) :
    Path.beyond store.filesRoot (Path.parent (Path.join store.filesRoot relpath))
      = Transaction.parentPieces relpath := by
  rw [parent_eq h]
  split
  · next hnil => rw [hnil, Path.beyond_self]
  · next hne => rw [Path.beyond_slash, split_parentPieces hne]

theorem under_parent (h : Relpath.isValid relpath = true) :
    Path.Under store.filesRoot (Path.parent (Path.join store.filesRoot relpath)) where
  goes := by
    rw [parent_eq h]
    split
    · exact .inl rfl
    · exact .inr ⟨_, rfl⟩
  up := by
    rw [beyond_parent store h]
    exact Transaction.up_not_mem_parentPieces h

/-- A path beside that of a blob goes on from the files directory, too. -/
theorem beside_eq (store : Store) (h : Relpath.isValid relpath = true) (name : String) :
    ∃ rest, store.besidePath relpath name = store.filesRoot ++ "/" ++ rest
      ∧ split '/' rest = Transaction.parentPieces relpath ++ split '/' name := by
  unfold besidePath
  rw [parent_eq h]
  split
  · next hnil => exact ⟨name, rfl, by rw [hnil, List.nil_append]⟩
  · next hne =>
    refine ⟨joinWith '/' (Transaction.parentPieces relpath) ++ "/" ++ name, ?_, ?_⟩
    · simp only [String.append_assoc]
    · rw [split_slash, split_parentPieces hne]

theorem beyond_beside (h : Relpath.isValid relpath = true) (name : String) :
    Path.beyond store.filesRoot (store.besidePath relpath name)
      = Transaction.parentPieces relpath ++ split '/' name := by
  obtain ⟨rest, hpath, hrest⟩ := beside_eq store h name
  rw [hpath, Path.beyond_slash, hrest]

theorem under_beside (h : Relpath.isValid relpath = true) {name : String}
    (hname : ".." ∉ split '/' name) :
    Path.Under store.filesRoot (store.besidePath relpath name) where
  goes := by
    obtain ⟨rest, hpath, -⟩ := beside_eq store h name
    exact .inr ⟨rest, hpath⟩
  up := by
    rw [beyond_beside h]
    exact fun hmem => (List.mem_append.1 hmem).elim (Transaction.up_not_mem_parentPieces h) hname

end Store

-- ===================================================== requests

/-- What a transaction asks of the operating system when it commits. -/
inductive Request where
  | makeDirs (dir : String)
  /-- A new file without content. -/
  | create (path : String)
  | write (path : String) (content : Bytes)
  | rename (source path : String)
  | remove (path : String)

namespace Request

/-- The tree once something is tried on it, which leaves it as it was if it
is refused. -/
def tried (t : Tree) : Except OsError Tree → Tree × Except OsError Unit
  | .ok t => (t, .ok ())
  | .error cause => (t, .error cause)

/-- The tree once a request is served, and why it is refused, if it is. A
path leads along the pieces that `find` has for it; a temporary file goes by
what `full` makes of its path. Nothing is said of a file that cannot be
removed. -/
def run (find : String → List String) (full : String → String) (t : Tree) :
    Request → Tree × Except OsError Unit
  | .makeDirs dir =>
      match refusal? dir with
      | some cause => (t, .error cause)
      | none =>
          match t.makeDirs (find dir) with
          | (t, .ok _) => (t, .ok ())
          | (t, .error cause) => (t, .error cause)
  | .create path => tried t (reach (full path) (t.create (find path)))
  | .write path content => tried t (t.write (find path) content)
  | .rename source path =>
      tried t (reach (full source) (reach path (t.renameAlong (find source) (find path))))
  | .remove path =>
      (if (refusal? path).isNone then t.removeFile (find path) else t, .ok ())

variable {σ : Type}

/-- Serves requests one after the other, whatever they come to. -/
def serveEach (act : σ → Request → σ × Except OsError Unit) (state : σ) (requests : List Request) :
    σ :=
  requests.foldl (fun state request => (act state request).1) state

/-- The temporary files that there are, in order, once a request is served
that is not refused. -/
def leaves (held : List String) : Request → List String
  | .create path => held ++ [path]
  | .rename source _ => held.erase source
  | _ => held

/-- The requests that are made of those that a commit wants: if one is
refused, it is the last of them, and the temporary files that there are
then are removed. -/
def asked (act : σ → Request → σ × Except OsError Unit) (state : σ) (held : List String) :
    List Request → List Request
  | [] => []
  | request :: rest =>
      match act state request with
      | (state, .ok ()) => request :: asked act state (request.leaves held) rest
      | (_, .error _) => request :: held.map .remove

/-- A request for paths below a directory. -/
def Below (root : String) : Request → Prop
  | .makeDirs dir => Path.Under root dir
  | .create path => Path.Under root path ∧ Path.beyond root path ≠ []
  | .write path _ => Path.Under root path
  | .rename source path =>
      Path.Under root source ∧ Path.Under root path ∧ ∃ piece ∈ Path.beyond root path, piece ≠ ""
  | .remove path => Path.Under root path

/-- Temporary files are created below the directory, so they are removed
there, too. -/
theorem under_leaves {root : String} {held : List String} {request : Request}
    (hrequest : request.Below root) (hheld : ∀ path ∈ held, Path.Under root path) :
    ∀ path ∈ request.leaves held, Path.Under root path := by
  cases request with
  | create path =>
      intro other hother
      rcases List.mem_append.1 hother with hmem | hmem
      · exact hheld other hmem
      · rw [List.mem_singleton.1 hmem]
        exact hrequest.1
  | rename source path => exact fun other hother => hheld other (List.mem_of_mem_erase hother)
  | makeDirs | write | remove => exact hheld

/-- What is asked for stays below the directory if what a commit wants
does. -/
theorem below_asked {root : String} {act : σ → Request → σ × Except OsError Unit} {state : σ}
    {held : List String} {requests : List Request} (hall : ∀ r ∈ requests, r.Below root)
    (hheld : ∀ path ∈ held, Path.Under root path) :
    ∀ r ∈ asked act state held requests, r.Below root := by
  induction requests generalizing state held with
  | nil => exact nofun
  | cons request rest ih =>
      obtain ⟨hfirst, hrest⟩ := List.forall_mem_cons.1 hall
      rw [asked]
      split
      · exact List.forall_mem_cons.2 ⟨hfirst, ih hrest (under_leaves hfirst hheld)⟩
      · exact List.forall_mem_cons.2 ⟨hfirst, List.forall_mem_map.2 hheld⟩

end Request

/-- The store once a request is served. -/
def Store.serve (store : Store) (request : Request) : Store × Except OsError Unit :=
  let served := request.run (Path.beyond store.filesRoot) (Path.join store.cwd) store.files
  ({ store with files := served.1 }, served.2)

namespace Machine

/-- The machine once a request is served. -/
def serve (m : Machine) (request : Request) : Machine × Except OsError Unit :=
  let served := request.run m.pieces (Path.join m.env.cwd) m.disk
  ({ m with disk := served.1 }, served.2)

/-- The machine once requests are served. -/
def serveEach (m : Machine) (requests : List Request) : Machine :=
  Request.serveEach serve m requests

-- ===================================================== a store on a disk

/-- A machine on which a store is at a place: the path of its files
directory leads there, from the working directory of the machine, and the
disk below looks like its files. -/
structure Keeps (m : Machine) (place : Place) (store : Store) : Prop where
  walk : m.disk.walk (m.pieces store.filesRoot) = .ok (filesPlace place)
  nested : Nested m.disk store.files (filesPlace place)
  cwd : store.cwd = m.env.cwd

/-- A machine that is changed below the files directory only. -/
structure Confined (place : Place) (m m' : Machine) : Prop where
  env : m'.env = m.env
  outside : ∀ q, ¬filesPlace place <+: q → m'.disk.node? q = m.disk.node? q

theorem Confined.refl (place : Place) (m : Machine) : Confined place m m := ⟨rfl, fun _ _ => rfl⟩

theorem Confined.trans {place : Place} {m m' m'' : Machine} (h : Confined place m m')
    (h' : Confined place m' m'') : Confined place m m'' :=
  ⟨h'.env.trans h.env, fun q hq => (h'.outside q hq).trans (h.outside q hq)⟩

variable {m m' : Machine} {place : Place} {store after : Store} {relpath path : String}

/-- What follows the files directory in a path follows it in its pieces. -/
theorem pieces_under (m : Machine) (h : Path.Under store.filesRoot path) :
    m.pieces path = m.pieces store.filesRoot ++ Path.beyond store.filesRoot path := by
  rcases h.goes with rfl | ⟨rest, rfl⟩
  · rw [Path.beyond_self, List.append_nil]
  · unfold pieces
    rw [Path.beyond_slash, Path.join_slash _ store.filesRoot_ends.1, split_slash]

theorem pieces_path (m : Machine) (h : Relpath.isValid relpath = true) :
    m.pieces (Path.join store.filesRoot relpath)
      = m.pieces store.filesRoot ++ Store.pieces relpath := by
  rw [m.pieces_under (Store.under_path h), Store.beyond_path h]

/-- Files that follow those of the store, on a disk where no directory is
lost. -/
theorem Keeps.change (h : m.Keeps place store) {disk : Tree} {files : Tree}
    (hfollows : Follows (filesPlace place) m.disk disk files)
    (hdirs : Transaction.KeepsDirs store.files files) :
    Keeps { m with disk } place { store with files } ∧ Confined place m { m with disk } := by
  refine ⟨⟨?_, hfollows.nested, h.cwd⟩, rfl, hfollows.outside⟩
  exact walk_mono (hfollows.dirs h.nested hdirs) h.nested.dir h.walk

-- ===================================================== serving

/-- What is served on a machine and in a store: the answer is one, the store
is on the machine again, and the machine has changed below the files
directory only. -/
structure Served (place : Place) (m : Machine) (onDisk : Machine × Except OsError Unit)
    (inStore : Store × Except OsError Unit) : Prop where
  answer : onDisk.2 = inStore.2
  keeps : onDisk.1.Keeps place inStore.1
  confined : Confined place m onDisk.1

/-- Something that agrees on the disk and below the files directory. -/
theorem Keeps.tried (h : m.Keeps place store) {onDisk inTree : Except OsError Tree}
    (hagree : Agree (filesPlace place) m.disk store.files onDisk inTree) :
    Served place m ({ m with disk := (Request.tried m.disk onDisk).1 },
        (Request.tried m.disk onDisk).2)
      ({ store with files := (Request.tried store.files inTree).1 },
        (Request.tried store.files inTree).2) := by
  rcases hagree with ⟨cause, rfl, rfl⟩ | ⟨files, disk, rfl, rfl, hfollows, hdirs⟩
  · exact ⟨rfl, h, .refl place m⟩
  · obtain ⟨hkeeps, hconfined⟩ := h.change hfollows hdirs
    exact ⟨rfl, hkeeps, hconfined⟩

/-- It agrees if a path is refused on both. -/
theorem agree_reach {top : Place} {disk t : Tree} {onDisk inTree : Except OsError Tree}
    (h : Agree top disk t onDisk inTree) (path : String) :
    Agree top disk t (reach path onDisk) (reach path inTree) := by
  unfold reach
  cases refusal? path with
  | some cause => exact .inl ⟨cause, rfl, rfl⟩
  | none => exact h

/-- Directories are made on the disk as in the store. -/
theorem Keeps.makeDirs (h : m.Keeps place store) {dir : String}
    (hunder : Path.Under store.filesRoot dir) :
    Served place m (m.serve (.makeDirs dir)) (store.serve (.makeDirs dir)) := by
  obtain ⟨hanswer, hfollows⟩ := h.nested.makeDirs h.walk hunder.up
  obtain ⟨hkeeps, hconfined⟩ :=
    h.change hfollows fun q => (grown_makeDirs store.files hunder.up).dir
  rw [← m.pieces_under hunder] at hanswer hkeeps hconfined
  unfold serve Store.serve Request.run
  dsimp only
  cases refusal? dir with
  | some cause => exact ⟨rfl, h, .refl place m⟩
  | none =>
      revert hanswer hkeeps hconfined
      dsimp only
      generalize m.disk.makeDirs _ = onDisk
      generalize store.files.makeDirs _ = inStore
      obtain ⟨disk, answer⟩ := onDisk
      obtain ⟨files, answer'⟩ := inStore
      intro hanswer hkeeps hconfined
      obtain rfl : answer = _ := hanswer
      cases answer' with
      | ok dest => exact ⟨rfl, hkeeps, hconfined⟩
      | error cause => exact ⟨rfl, hkeeps, hconfined⟩

/-- A file is removed on the disk as in the store. -/
theorem Keeps.remove (h : m.Keeps place store) (hunder : Path.Under store.filesRoot path) :
    Served place m (m.serve (.remove path)) (store.serve (.remove path)) := by
  unfold serve Store.serve Request.run
  dsimp only
  split
  · have hfollows := h.nested.removeFile h.walk hunder.up
    rw [← m.pieces_under hunder] at hfollows
    obtain ⟨hkeeps, hconfined⟩ := h.change hfollows fun q => removeFile_dirs
    exact ⟨rfl, hkeeps, hconfined⟩
  · exact ⟨rfl, h, .refl place m⟩

/-- A request below the files directory changes the disk as it changes the
store. -/
theorem Keeps.serve (h : m.Keeps place store) {request : Request}
    (hbelow : request.Below store.filesRoot) :
    Served place m (m.serve request) (store.serve request) := by
  cases request with
  | makeDirs dir => exact h.makeDirs hbelow
  | create path =>
      obtain ⟨hunder, hne⟩ := hbelow
      have hagree := agree_reach (h.nested.create h.walk hunder.up hne) (Path.join store.cwd path)
      unfold Machine.serve Store.serve Request.run
      dsimp only
      rw [m.pieces_under hunder, ← h.cwd]
      exact h.tried hagree
  | write path content =>
      have hagree := h.nested.write h.walk (Path.Under.up hbelow) content
      unfold Machine.serve Store.serve Request.run
      dsimp only
      rw [m.pieces_under hbelow]
      exact h.tried hagree
  | rename source path =>
      obtain ⟨hsource, hunder, piece, hmem, hne⟩ := hbelow
      have hagree := agree_reach
        (agree_reach (h.nested.renameAlong h.walk hsource.up hunder.up hmem hne) path)
        (Path.join store.cwd source)
      unfold Machine.serve Store.serve Request.run
      dsimp only
      rw [m.pieces_under hsource, m.pieces_under hunder, ← h.cwd]
      exact h.tried hagree
  | remove path => exact h.remove hbelow

theorem serve_filesRoot (store : Store) (request : Request) :
    (store.serve request).1.filesRoot = store.filesRoot := rfl

/-- Requests are served on the disk as in the store. -/
theorem Keeps.serveEach (h : m.Keeps place store) {requests : List Request}
    (hall : ∀ r ∈ requests, r.Below store.filesRoot) :
    (m.serveEach requests).Keeps place (Request.serveEach Store.serve store requests)
      ∧ Confined place m (m.serveEach requests) := by
  induction requests generalizing m store with
  | nil => exact ⟨h, .refl place m⟩
  | cons request rest ih =>
      obtain ⟨hfirst, hrest⟩ := List.forall_mem_cons.1 hall
      obtain ⟨-, hkeeps, hconfined⟩ := h.serve hfirst
      obtain ⟨hkeeps', hconfined'⟩ := ih hkeeps hrest
      exact ⟨hkeeps', hconfined.trans hconfined'⟩

/-- And the same are made, as the answers are the same. -/
theorem Keeps.asked (h : m.Keeps place store) {requests : List Request}
    (hall : ∀ r ∈ requests, r.Below store.filesRoot) (held : List String) :
    Request.asked Machine.serve m held requests
      = Request.asked Store.serve store held requests := by
  induction requests generalizing m store held with
  | nil => rfl
  | cons request rest ih =>
      obtain ⟨hfirst, hrest⟩ := List.forall_mem_cons.1 hall
      have hserved := h.serve hfirst
      have hroot := serve_filesRoot store request
      rw [Request.asked, Request.asked]
      cases hdisk : m.serve request with
      | mk m' answer =>
          cases hstore : store.serve request with
          | mk after answer' =>
              rw [hdisk, hstore] at hserved
              rw [hstore] at hroot
              obtain rfl : answer = answer' := hserved.answer
              cases answer with
              | error cause => rfl
              | ok _ =>
                  dsimp only
                  rw [ih hserved.keeps (by rw [hroot]; exact hrest)]

end Machine

end Depot
