/-
A tree within a tree. Where a disk looks like a tree below some directory
(`Nested`), a path that leads to the directory and goes on without a step
upwards does on the disk what the rest of the path does on the tree: it
leads to the same place below the directory (`Nested.walk`), so the same
is read there, and what is made, moved or removed there changes the disk
as it changes the tree, and nowhere else (`Follows`).
-/
import Depot.Proofs.Files.Change
import Mathlib.Data.List.TakeWhile

namespace Depot.Files.Tree

variable {disk disk' t t' : Tree} {top place : Place} {base pieces : List String}

/-- Below a place, a disk looks like a tree. -/
def Nested (disk t : Tree) (top : Place) : Prop := ∀ q, disk.node? (top ++ q) = t.node? q

/-- A disk that looks like another tree below a place than it did, and as
it did elsewhere. -/
structure Follows (top : Place) (disk disk' t' : Tree) : Prop where
  nested : Nested disk' t' top
  outside : ∀ q, ¬top <+: q → disk'.node? q = disk.node? q

theorem Nested.follows (h : Nested disk t top) : Follows top disk disk t := ⟨h, fun _ _ => rfl⟩

theorem Follows.trans {disk'' t'' : Tree} (h : Follows top disk disk' t')
    (h' : Follows top disk' disk'' t'') : Follows top disk disk'' t'' :=
  ⟨h'.nested, fun q hq => (h'.outside q hq).trans (h.outside q hq)⟩

theorem nested_below (h : t.node? top = some .dir) : Nested t (t.below top) top := by
  intro q
  by_cases hq : q = []
  · rw [hq, List.append_nil, h, node?_nil]
  · rw [node?_of_ne hq, getElem?_below t top hq, node?_of_ne (by simp [hq])]

namespace Nested

theorem dir (h : Nested disk t top) : disk.node? top = some .dir := by
  have hnil := h []
  rwa [List.append_nil, node?_nil] at hnil

theorem file? (h : Nested disk t top) (q : Place) : disk.file? (top ++ q) = t.file? q := by
  unfold Tree.file?
  rw [h]

-- ===================================================== paths

theorem step (h : Nested disk t top) {piece : String} (hup : piece ≠ "..") (place : Place) :
    disk.step (top ++ place) piece = (t.step place piece).map (top ++ ·) := by
  unfold Tree.step
  rw [h, List.append_assoc, h, if_neg hup, if_neg hup]
  repeat' split
  all_goals rfl

theorem foldlM_step (h : Nested disk t top) (hup : ".." ∉ pieces) (place : Place) :
    pieces.foldlM disk.step (top ++ place) = (pieces.foldlM t.step place).map (top ++ ·) := by
  induction pieces generalizing place with
  | nil => rfl
  | cons piece rest ih =>
      rw [List.foldlM_cons, List.foldlM_cons, h.step fun heq => hup (by simp [heq])]
      cases t.step place piece with
      | error e => rfl
      | ok next => exact ih (fun hmem => hup (by simp [hmem])) next

/-- A path that leads to the directory and on leads below it, where its
rest leads in the tree. -/
theorem walk (h : Nested disk t top) (hbase : disk.walk base = .ok top) (hup : ".." ∉ pieces) :
    disk.walk (base ++ pieces) = (t.walk pieces).map (top ++ ·) := by
  unfold Tree.walk at hbase ⊢
  rw [List.foldlM_append, hbase]
  have hfold := h.foldlM_step hup []
  rwa [List.append_nil] at hfold

theorem isFile (h : Nested disk t top) (hbase : disk.walk base = .ok top) (hup : ".." ∉ pieces) :
    disk.isFile (base ++ pieces) = t.isFile pieces := by
  unfold Tree.isFile
  rw [h.walk hbase hup]
  cases t.walk pieces with
  | error e => rfl
  | ok place => exact congrArg Option.isSome (h.file? place)

theorem read (h : Nested disk t top) (hbase : disk.walk base = .ok top) (hup : ".." ∉ pieces) :
    disk.read (base ++ pieces) = t.read pieces := by
  unfold Tree.read
  rw [h.walk hbase hup]
  cases t.walk pieces with
  | error e => rfl
  | ok place =>
      simp only [Except.map, h.file?]

theorem size (h : Nested disk t top) (hbase : disk.walk base = .ok top) (hup : ".." ∉ pieces) :
    disk.size (base ++ pieces) = t.size pieces := by
  unfold Tree.size
  rw [h.walk hbase hup]
  cases t.walk pieces with
  | error e => rfl
  | ok place => simp only [Except.map, h.file?]

-- ===================================================== single nodes

theorem insert (h : Nested disk t top) (hne : place ≠ []) (node : Node) :
    Follows top disk ⟨disk.nodes.insert (top ++ place) node⟩ ⟨t.nodes.insert place node⟩ where
  nested q := by
    rw [node?_insert (by simp [hne]), node?_insert hne, h]
    simp
  outside q hq := by
    rw [node?_insert (by simp [hne]), if_neg]
    intro heq
    subst heq
    exact hq (List.prefix_append top place)

theorem erase (h : Nested disk t top) (hne : place ≠ []) :
    Follows top disk ⟨disk.nodes.erase (top ++ place)⟩ ⟨t.nodes.erase place⟩ where
  nested q := by
    rw [node?_erase (by simp [hne]), node?_erase hne, h]
    simp
  outside q hq := by
    rw [node?_erase (by simp [hne]), if_neg]
    intro heq
    subst heq
    exact hq (List.prefix_append top place)

-- ===================================================== making directories

theorem makeStep (h : Nested disk t top) {piece : String} (hup : piece ≠ "..") (last : Bool)
    (place : Place) :
    (Tree.makeStep last (disk, top ++ place) piece).2
        = (Tree.makeStep last (t, place) piece).2.map (top ++ ·)
      ∧ Follows top disk (Tree.makeStep last (disk, top ++ place) piece).1
        (Tree.makeStep last (t, place) piece).1 := by
  unfold Tree.makeStep
  dsimp only
  rw [h.step hup]
  cases t.step place piece with
  | ok next =>
      dsimp only [Except.map]
      rw [h next]
      by_cases hlast : last = true ∧ t.node? next ≠ some .dir
      · rw [if_pos hlast, if_pos hlast]
        exact ⟨rfl, h.follows⟩
      · rw [if_neg hlast, if_neg hlast]
        exact ⟨rfl, h.follows⟩
  | error e =>
      cases e with
      | notFound =>
          dsimp only [Except.map]
          rw [List.append_assoc]
          exact ⟨rfl, h.insert (by simp) .dir⟩
      | busy | «exists» | notDirectory | isDirectory | nameTooLong | nulInName | onPath =>
          exact ⟨rfl, h.follows⟩

theorem makeDirsFrom (h : Nested disk t top) (hup : ".." ∉ pieces) (place : Place) :
    (disk.makeDirsFrom (top ++ place) pieces).2 = (t.makeDirsFrom place pieces).2.map (top ++ ·)
      ∧ Follows top disk (disk.makeDirsFrom (top ++ place) pieces).1
        (t.makeDirsFrom place pieces).1 := by
  induction pieces generalizing disk t place with
  | nil => exact ⟨rfl, h.follows⟩
  | cons piece rest ih =>
      have hrest : ".." ∉ rest := fun hmem => hup (by simp [hmem])
      have hpiece : piece ≠ ".." := fun heq => hup (by simp [heq])
      obtain ⟨hanswer, hfollows⟩ := h.makeStep hpiece rest.isEmpty place
      unfold Tree.makeDirsFrom
      revert hanswer hfollows
      generalize Tree.makeStep rest.isEmpty (disk, top ++ place) piece = a
      generalize Tree.makeStep rest.isEmpty (t, place) piece = b
      obtain ⟨disk', answer⟩ := a
      obtain ⟨t', answer'⟩ := b
      intro hanswer hfollows
      dsimp only at hanswer hfollows
      subst hanswer
      cases answer' with
      | error e => exact ⟨rfl, hfollows⟩
      | ok next =>
          obtain ⟨hlater, hfollows'⟩ := ih hfollows.nested hrest next
          exact ⟨hlater, hfollows.trans hfollows'⟩

/-- Directories that are there already are gone through. -/
theorem makeDirsFrom_base (htop : disk.node? top = some .dir) (base pieces : List String)
    (hbase : base.foldlM disk.step place = .ok top) :
    disk.makeDirsFrom place (base ++ pieces) = disk.makeDirsFrom top pieces := by
  induction base generalizing place with
  | nil =>
      cases hbase
      rfl
  | cons piece rest ih =>
      rw [List.foldlM_cons] at hbase
      rw [List.cons_append]
      cases hstep : disk.step place piece with
      | error e =>
          rw [hstep] at hbase
          cases hbase
      | ok next =>
          rw [hstep] at hbase
          change rest.foldlM disk.step next = _ at hbase
          rw [← ih hbase]
          rw [Tree.makeDirsFrom]
          unfold Tree.makeStep
          dsimp only
          rw [hstep]
          dsimp only
          rw [if_neg]
          intro h
          obtain ⟨hlast, hnode⟩ := h
          -- the last of them is the directory itself
          obtain ⟨rfl, -⟩ := List.append_eq_nil_iff.1 (List.isEmpty_iff.1 hlast)
          cases hbase
          exact hnode htop

theorem makeDirs (h : Nested disk t top) (hbase : disk.walk base = .ok top)
    (hup : ".." ∉ pieces) :
    (disk.makeDirs (base ++ pieces)).2 = (t.makeDirs pieces).2.map (top ++ ·)
      ∧ Follows top disk (disk.makeDirs (base ++ pieces)).1 (t.makeDirs pieces).1 := by
  have hfrom := h.makeDirsFrom hup []
  rw [List.append_nil] at hfrom
  unfold Tree.makeDirs
  rwa [makeDirsFrom_base h.dir base pieces hbase]

-- ===================================================== moving files

theorem dropSlashes_eq (pieces : List String) : dropSlashes pieces
    = (pieces.reverse.dropWhile (· = ""), decide (pieces.reverse.head? = some "")) := by
  unfold dropSlashes
  cases pieces.reverse with
  | nil => rfl
  | cons last above =>
      by_cases hlast : last = ""
      · subst hlast
        rfl
      · simp [hlast]

/-- What is in front of a path with a name stays in front of it. -/
theorem dropSlashes_append (base : List String) (h : (dropSlashes pieces).1 ≠ []) :
    dropSlashes (base ++ pieces)
      = ((dropSlashes pieces).1 ++ base.reverse, (dropSlashes pieces).2) := by
  rw [dropSlashes_eq] at h ⊢
  rw [dropSlashes_eq, List.reverse_append, List.dropWhile_append, if_neg (by simpa using h)]
  cases hback : pieces.reverse with
  | nil => exact absurd (by rw [hback]; rfl) h
  | cons last above => rfl

/-- Moving a file to a path below the directory is moving it in the tree. -/
theorem moveInto (h : Nested disk t top) (hbase : disk.walk base = .ok top) (hup : ".." ∉ pieces)
    {piece : String} (hmem : piece ∈ pieces) (hne : piece ≠ "") (content : Bytes) :
    (∃ e, t.moveInto pieces content = .error e
        ∧ disk.moveInto (base ++ pieces) content = .error e)
      ∨ ∃ t' disk', t.moveInto pieces content = .ok t'
        ∧ disk.moveInto (base ++ pieces) content = .ok disk' ∧ Follows top disk disk' t' := by
  have hnames : (dropSlashes pieces).1 ≠ [] := by
    rw [dropSlashes_eq]
    intro heq
    have hall := List.dropWhile_eq_nil_iff.1 heq piece (List.mem_reverse.2 hmem)
    exact hne (by simpa using hall)
  have hsub : ∀ x ∈ (dropSlashes pieces).1, x ∈ pieces := by
    rw [dropSlashes_eq]
    exact fun x hx => List.mem_reverse.1 ((List.dropWhile_sublist _).mem hx)
  unfold Tree.moveInto
  rw [dropSlashes_append base hnames]
  generalize dropSlashes pieces = dropped at hnames hsub
  obtain ⟨names, slash⟩ := dropped
  cases names with
  | nil => exact absurd rfl hnames
  | cons name above =>
      have habove : ".." ∉ above.reverse := fun hmem =>
        hup (hsub _ (List.mem_cons_of_mem _ (List.mem_reverse.1 hmem)))
      dsimp only [List.cons_append]
      rw [List.reverse_append, List.reverse_reverse, h.walk hbase habove]
      cases t.walk above.reverse with
      | error e => exact .inl ⟨e, rfl, rfl⟩
      | ok dir =>
          dsimp only [Except.map]
          rw [h, List.append_assoc, h]
          repeat' split
          all_goals first
            | exact .inl ⟨_, rfl, rfl⟩
            | exact .inr ⟨_, _, rfl, rfl, h.insert (by simp) _⟩

-- ===================================================== removing files

theorem removeFile (h : Nested disk t top) (hbase : disk.walk base = .ok top)
    (hup : ".." ∉ pieces) :
    Follows top disk (disk.removeFile (base ++ pieces)) (t.removeFile pieces) := by
  unfold Tree.removeFile
  rw [h.walk hbase hup]
  cases t.walk pieces with
  | error e => exact h.follows
  | ok place =>
      dsimp only [Except.map]
      rw [h.file?]
      split
      · next hfile =>
        refine h.erase fun hnil => ?_
        -- the top is a directory
        subst hnil
        unfold Tree.file? at hfile
        rw [node?_nil] at hfile
        cases hfile
      · exact h.follows

end Nested

/-- No directory is removed. -/
theorem removeFile_dirs {q : Place} (hq : t.node? q = some .dir) :
    (t.removeFile pieces).node? q = some .dir := by
  unfold Tree.removeFile
  cases t.walk pieces with
  | error e => exact hq
  | ok place =>
      dsimp only
      split
      · next hfile =>
        obtain ⟨content, hcontent⟩ := Option.isSome_iff_exists.1 hfile
        have hnode := file?_eq_some.1 hcontent
        rw [node?_erase (fun hnil => by rw [hnil, node?_nil] at hnode; cases hnode), if_neg]
        · exact hq
        · intro heq
          rw [heq, hnode] at hq
          cases hq
      · exact hq

-- ===================================================== what stays

/-- Where directories of the tree stay, those of the disk do. -/
theorem Follows.dirs (h : Follows top disk disk' t') (hnested : Nested disk t top)
    (hdirs : ∀ q, t.node? q = some .dir → t'.node? q = some .dir) (q : Place)
    (hq : disk.node? q = some .dir) : disk'.node? q = some .dir := by
  by_cases hunder : top <+: q
  · obtain ⟨rest, rfl⟩ := hunder
    rw [hnested] at hq
    rw [h.nested]
    exact hdirs rest hq
  · rw [h.outside q hunder]
    exact hq

/-- Steps lead out of directories only. -/
theorem dir_of_step {piece : String} {next : Place} (h : t.step place piece = .ok next) :
    t.node? place = some .dir := by
  apply Classical.byContradiction
  intro hdir
  unfold Tree.step at h
  rw [if_pos hdir] at h
  cases h

/-- What is walked through on the way to a directory are directories. -/
theorem dir_of_foldlM {start : Place} (h : pieces.foldlM t.step start = .ok top)
    (htop : t.node? top = some .dir) : t.node? start = some .dir := by
  cases pieces with
  | nil =>
      cases h
      exact htop
  | cons piece rest =>
      rw [List.foldlM_cons] at h
      cases hstep : t.step start piece with
      | error e =>
          rw [hstep] at h
          cases h
      | ok next => exact dir_of_step hstep

/-- A step to a directory is taken still where directories stay. -/
theorem step_mono {piece : String} {next : Place}
    (hdirs : ∀ q, t.node? q = some .dir → t'.node? q = some .dir)
    (h : t.step place piece = .ok next) (hplace : t.node? place = some .dir)
    (hnext : t.node? next = some .dir) : t'.step place piece = .ok next := by
  unfold Tree.step at h ⊢
  rw [if_neg (by simp [hplace])] at h
  rw [if_neg (by simp [hdirs place hplace])]
  split
  · next hidle => rwa [if_pos hidle] at h
  · next hidle =>
    rw [if_neg hidle] at h
    split
    · next hup => rwa [if_pos hup] at h
    · next hup =>
      rw [if_neg hup] at h
      split
      · next hlong =>
        rw [if_pos hlong] at h
        cases h
      · next hlong =>
        rw [if_neg hlong] at h
        split at h
        · cases h
          rw [if_pos (by simp [hdirs _ hnext])]
        · cases h

theorem foldlM_mono (hdirs : ∀ q, t.node? q = some .dir → t'.node? q = some .dir)
    (htop : t.node? top = some .dir) (h : pieces.foldlM t.step place = .ok top) :
    pieces.foldlM t'.step place = .ok top := by
  induction pieces generalizing place with
  | nil => exact h
  | cons piece rest ih =>
      have hplace := dir_of_foldlM h htop
      rw [List.foldlM_cons] at h ⊢
      cases hstep : t.step place piece with
      | error e =>
          rw [hstep] at h
          cases h
      | ok next =>
          rw [hstep] at h
          change rest.foldlM t.step next = _ at h
          rw [step_mono hdirs hstep hplace (dir_of_foldlM h htop)]
          exact ih h

/-- So where directories stay, a path to one leads there still. -/
theorem walk_mono (hdirs : ∀ q, t.node? q = some .dir → t'.node? q = some .dir)
    (htop : t.node? top = some .dir) (h : t.walk base = .ok top) : t'.walk base = .ok top :=
  foldlM_mono hdirs htop h

-- ===================================================== directories that are made

/-- A step that makes a directory if it is missing is taken then. -/
theorem makeStep_ok {piece : String} {last : Bool} {next : Place}
    (h : makeStep last (t, place) piece = (t', .ok next)) :
    (∀ q, t.node? q = some .dir → t'.node? q = some .dir) ∧ t.node? place = some .dir
      ∧ t'.step place piece = .ok next ∧ (last = true → t'.node? next = some .dir) := by
  unfold Tree.makeStep at h
  dsimp only at h
  cases hstep : t.step place piece with
  | ok found =>
      rw [hstep] at h
      dsimp only at h
      split at h
      · cases h
      · next hlast =>
        cases h
        exact ⟨fun _ hq => hq, dir_of_step hstep, hstep,
          fun h => Classical.byContradiction fun hno => hlast ⟨h, hno⟩⟩
  | error e =>
      rw [hstep] at h
      cases e with
      | notFound =>
          cases h
          have hup : piece ≠ ".." := by
            intro heq
            subst heq
            unfold Tree.step at hstep
            split at hstep
            · cases hstep
            · rw [if_neg (by decide), if_pos rfl] at hstep
              cases hstep
          obtain ⟨hdir, hname, hlen, -⟩ := step_notFound hstep hup
          have hne : place ++ [piece] ≠ [] := by simp
          have hdirs : ∀ q, t.node? q = some .dir →
              (⟨t.nodes.insert (place ++ [piece]) .dir⟩ : Tree).node? q = some .dir := by
            intro q hq
            rw [node?_insert hne]
            split
            · rfl
            · exact hq
          have hmade : (⟨t.nodes.insert (place ++ [piece]) .dir⟩ : Tree).node? (place ++ [piece])
              = some .dir := by rw [node?_insert hne, if_pos rfl]
          refine ⟨hdirs, hdir, ?_, fun _ => hmade⟩
          rw [step_name (hdirs place hdir) hname hup, if_neg (Nat.not_lt.2 hlen), hmade]
          rfl
      | busy | «exists» | notDirectory | isDirectory | nameTooLong | nulInName | onPath => cases h

/-- Once the directories along a path are made, it leads to the last of
them. -/
theorem foldlM_of_makeDirsFrom {dest : Place} (hne : pieces ≠ [])
    (h : t.makeDirsFrom place pieces = (t', .ok dest)) :
    (∀ q, t.node? q = some .dir → t'.node? q = some .dir) ∧ t.node? place = some .dir
      ∧ t'.node? dest = some .dir ∧ pieces.foldlM t'.step place = .ok dest := by
  induction pieces generalizing t place with
  | nil => exact absurd rfl hne
  | cons piece rest ih =>
      rw [Tree.makeDirsFrom] at h
      split at h
      · cases h
      · next between next hstep =>
        obtain ⟨hdirs, hplace, hnext, hlast⟩ := makeStep_ok hstep
        rw [List.foldlM_cons]
        cases rest with
        | nil =>
            cases h
            rw [hnext]
            exact ⟨hdirs, hplace, hlast rfl, rfl⟩
        | cons piece' rest =>
            obtain ⟨hdirs', hdir, hdest, hrest⟩ := ih (List.cons_ne_nil _ _) h
            rw [step_mono hdirs' hnext (hdirs place hplace) hdir]
            exact ⟨fun q hq => hdirs' q (hdirs q hq), hplace, hdest, hrest⟩

/-- The path along which directories are made leads to the last of them. -/
theorem walk_of_makeDirs {dest : Place} (hne : pieces ≠ [])
    (h : t.makeDirs pieces = (t', .ok dest)) :
    t'.node? dest = some .dir ∧ t'.walk pieces = .ok dest :=
  (foldlM_of_makeDirsFrom hne h).2.2

end Depot.Files.Tree
