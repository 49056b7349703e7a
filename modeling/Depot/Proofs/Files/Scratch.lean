/-
Files that are there for a while: one is created where nothing is, written
to, and then renamed or removed again. As with what lasts, what is done
along paths below a directory changes a disk as it changes the tree that
the disk looks like below it (`Nested.create`, `Nested.write`,
`Nested.renameAlong`), and no directory is lost by it.
-/
import Depot.Proofs.Files.Nested

namespace Depot.Files.Tree

variable {disk t t' : Tree} {top place : Place} {base pieces source : List String}

-- ===================================================== operations

/-- Creates a file where a path leads to nothing yet. -/
def create (t : Tree) (pieces : List String) : Except OsError Tree :=
  match t.walk pieces with
  | .ok _ => .error .exists
  | .error .notFound =>
      match t.walk pieces.dropLast with
      | .ok dir => .ok (t.put (dir ++ pieces.getLast?.toList) [])
      | .error e => .error e
  | .error e => .error e

/-- Writes to the file that a path leads to. -/
def write (t : Tree) (pieces : List String) (content : Bytes) : Except OsError Tree :=
  match t.walk pieces with
  | .ok place =>
      if (t.file? place).isSome then .ok (t.put place content) else .error .isDirectory
  | .error e => .error e

/-- Renames the file at a place: it is moved to where a path leads, and is
gone from its place if that is another one. -/
def rename (t : Tree) (source : Place) (pieces : List String) : Except OsError Tree :=
  match t.file? source with
  | none => .error .notFound
  | some content =>
      (t.moveInto pieces content).map fun t =>
        if t.walk pieces = .ok source then t else ⟨t.nodes.erase source⟩

/-- Renames the file that a path leads to. -/
def renameAlong (t : Tree) (source pieces : List String) : Except OsError Tree :=
  match t.walk source with
  | .ok place => t.rename place pieces
  | .error e => .error e

-- ===================================================== what stays

/-- A file comes to where no directory is. -/
theorem put_dirs (hnode : t.node? place ≠ some .dir) (content : Bytes) {q : Place}
    (hq : t.node? q = some .dir) : (t.put place content).node? q = some .dir := by
  have hne : place ≠ [] := fun hnil => hnode (by rw [hnil, node?_nil])
  rw [node?_put hne, if_neg]
  · exact hq
  · intro heq
    exact hnode (heq ▸ hq)

/-- What goes was no directory. -/
theorem erase_dirs (hnode : t.node? place ≠ some .dir) {q : Place} (hq : t.node? q = some .dir) :
    (⟨t.nodes.erase place⟩ : Tree).node? q = some .dir := by
  have hne : place ≠ [] := fun hnil => hnode (by rw [hnil, node?_nil])
  rw [node?_erase hne, if_neg]
  · exact hq
  · intro heq
    exact hnode (heq ▸ hq)

/-- There is no directory where a file is. -/
theorem ne_dir_of_file (h : (t.file? place).isSome = true) : t.node? place ≠ some .dir := by
  intro hdir
  unfold file? at h
  rw [hdir] at h
  cases h

theorem node_of_file (h : (t.file? place).isSome = true) : (t.node? place).isSome = true := by
  obtain ⟨content, hfile⟩ := Option.isSome_iff_exists.1 h
  rw [file?_eq_some.1 hfile]
  rfl

theorem ne_nil_of_file (h : (t.file? place).isSome = true) : place ≠ [] := by
  intro hnil
  exact ne_dir_of_file h (by rw [hnil, node?_nil])

-- ===================================================== how they come out

/-- A file is created in a directory where there was nothing. -/
theorem create_ok {above : List String} {name : String} (hup : name ≠ "..")
    (h : t.create (above ++ [name]) = .ok t') :
    ∃ dir, t.walk above = .ok dir ∧ t.node? dir = some .dir ∧ t.node? (dir ++ [name]) = none
      ∧ t' = t.put (dir ++ [name]) [] := by
  unfold create at h
  rw [List.dropLast_concat, List.getLast?_concat, walk_append] at h
  cases hdir : t.walk above with
  | error e =>
      rw [hdir] at h
      cases e <;> cases h
  | ok dir =>
      rw [hdir] at h
      change (match t.step dir name with
        | .ok _ => _
        | .error .notFound => _
        | .error e => _) = _ at h
      split at h
      · cases h
      · next hstep =>
        cases h
        obtain ⟨hdir', -, -, hfree⟩ := step_notFound hstep hup
        exact ⟨dir, rfl, hdir', hfree, rfl⟩
      · cases h

/-- It is created in a directory where there is nothing. -/
theorem create_eq {above : List String} {name : String} {dir : Place}
    (hwalk : t.walk above = .ok dir) (hdir : t.node? dir = some .dir)
    (hname : Path.isIdle name = false) (hup : name ≠ "..") (hlen : name.utf8ByteSize ≤ maxName)
    (hfree : t.node? (dir ++ [name]) = none) :
    t.create (above ++ [name]) = .ok (t.put (dir ++ [name]) []) := by
  have hstep : t.walk (above ++ [name]) = .error .notFound := by
    rw [walk_append, hwalk]
    change t.step dir name = _
    rw [step_name hdir hname hup, if_neg (Nat.not_lt.2 hlen), hfree]
    rfl
  unfold create
  rw [hstep, List.dropLast_concat, hwalk, List.getLast?_concat]
  rfl

/-- A path of a directory and a name leads to what is there. -/
theorem walk_name {above : List String} {name : String} {dir : Place}
    (hwalk : t.walk above = .ok dir) (hdir : t.node? dir = some .dir)
    (hname : Path.isIdle name = false) (hup : name ≠ "..") (hlen : name.utf8ByteSize ≤ maxName)
    (hnode : (t.node? (dir ++ [name])).isSome = true) :
    t.walk (above ++ [name]) = .ok (dir ++ [name]) := by
  rw [walk_append, hwalk]
  change t.step dir name = _
  rw [step_name hdir hname hup, if_neg (Nat.not_lt.2 hlen), if_pos hnode]

/-- A file that is moved stays at its place until that is erased. -/
theorem file_of_moveInto {content moved : Bytes} (hup : ".." ∉ pieces)
    (hfile : t.file? place = some moved) (h : t.moveInto pieces content = .ok t') :
    (t'.file? place).isSome = true := by
  obtain ⟨hpath, -, -, -, rfl⟩ := moveInto_ok hup h
  have hnode := file?_eq_some.1 hfile
  unfold Tree.file?
  rw [node?_put (names_ne_nil hpath)]
  by_cases hplace : place = names pieces
  · rw [if_pos hplace]
    rfl
  · rw [if_neg hplace, hnode]
    rfl

/-- No directory is lost by moving a file. -/
theorem moveInto_dirs {content : Bytes} (hup : ".." ∉ pieces)
    (h : t.moveInto pieces content = .ok t') (q : Place) (hq : t.node? q = some .dir) :
    t'.node? q = some .dir := by
  obtain ⟨-, -, -, hnode, rfl⟩ := moveInto_ok hup h
  exact put_dirs hnode content hq

/-- Nor by renaming one. -/
theorem rename_dirs (hup : ".." ∉ pieces) (h : t.rename place pieces = .ok t') (q : Place)
    (hq : t.node? q = some .dir) : t'.node? q = some .dir := by
  unfold rename at h
  cases hfile : t.file? place with
  | none =>
      rw [hfile] at h
      cases h
  | some content =>
      rw [hfile] at h
      dsimp only at h
      cases hmove : t.moveInto pieces content with
      | error e =>
          rw [hmove] at h
          cases h
      | ok moved =>
          rw [hmove] at h
          cases h
          have hdirs := moveInto_dirs hup hmove q hq
          dsimp only
          split
          · exact hdirs
          · exact erase_dirs (ne_dir_of_file (file_of_moveInto hup hfile hmove)) hdirs

-- ===================================================== below a directory

/-- What something comes to on a disk and in a tree that it looks like below
a directory: the same refusal, or what follows the tree, which loses no
directory. -/
def Agree (top : Place) (disk t : Tree) (onDisk inTree : Except OsError Tree) : Prop :=
  (∃ e, inTree = .error e ∧ onDisk = .error e)
    ∨ ∃ t' disk', inTree = .ok t' ∧ onDisk = .ok disk' ∧ Follows top disk disk' t'
      ∧ ∀ q, t.node? q = some .dir → t'.node? q = some .dir

namespace Nested

theorem create (h : Nested disk t top) (hbase : disk.walk base = .ok top) (hup : ".." ∉ pieces)
    (hne : pieces ≠ []) : Agree top disk t (disk.create (base ++ pieces)) (t.create pieces) := by
  obtain ⟨above, name, rfl⟩ : ∃ above name, pieces = above ++ [name] :=
    ⟨_, _, (List.dropLast_concat_getLast hne).symm⟩
  have habove : ".." ∉ above := fun hmem => hup (by simp [hmem])
  have hdirs : ∀ t', t.create (above ++ [name]) = .ok t' →
      ∀ q, t.node? q = some .dir → t'.node? q = some .dir := by
    intro t' hcreate q hq
    obtain ⟨dir, -, -, hfree, rfl⟩ := create_ok (fun heq => hup (by simp [heq])) hcreate
    exact put_dirs (by simp [hfree]) [] hq
  revert hdirs
  unfold Tree.create
  rw [h.walk hbase hup, ← List.append_assoc, List.dropLast_concat, List.dropLast_concat,
    h.walk hbase habove, List.getLast?_concat, List.getLast?_concat]
  cases t.walk (above ++ [name]) with
  | ok place => exact fun _ => .inl ⟨_, rfl, rfl⟩
  | error e => cases e with
    | notFound => cases t.walk above with
      | error e => exact fun _ => .inl ⟨_, rfl, rfl⟩
      | ok dir =>
          have hfollows := h.insert (show dir ++ [name] ≠ [] by simp) (.file [])
          rw [← List.append_assoc] at hfollows
          exact fun hdirs => .inr ⟨_, _, rfl, rfl, hfollows, hdirs _ rfl⟩
    | busy | «exists» | notDirectory | isDirectory | nameTooLong | nulInName | onPath =>
        exact fun _ => .inl ⟨_, rfl, rfl⟩

theorem write (h : Nested disk t top) (hbase : disk.walk base = .ok top) (hup : ".." ∉ pieces)
    (content : Bytes) :
    Agree top disk t (disk.write (base ++ pieces) content) (t.write pieces content) := by
  unfold Tree.write
  rw [h.walk hbase hup]
  cases t.walk pieces with
  | error e => exact .inl ⟨_, rfl, rfl⟩
  | ok place =>
      dsimp only [Except.map]
      rw [h.file?]
      split
      · next hfile =>
        exact .inr ⟨_, _, rfl, rfl, h.insert (ne_nil_of_file hfile) _,
          fun q => put_dirs (ne_dir_of_file hfile) content⟩
      · exact .inl ⟨_, rfl, rfl⟩

theorem renameAlong (h : Nested disk t top) (hbase : disk.walk base = .ok top)
    (hsource : ".." ∉ source) (hup : ".." ∉ pieces) {piece : String} (hmem : piece ∈ pieces)
    (hne : piece ≠ "") :
    Agree top disk t (disk.renameAlong (base ++ source) (base ++ pieces))
      (t.renameAlong source pieces) := by
  unfold Tree.renameAlong
  rw [h.walk hbase hsource]
  cases t.walk source with
  | error e => exact .inl ⟨_, rfl, rfl⟩
  | ok place =>
      dsimp only [Except.map]
      unfold Tree.rename
      rw [h.file?]
      cases hfile : t.file? place with
      | none => exact .inl ⟨_, rfl, rfl⟩
      | some content =>
          dsimp only
          rcases h.moveInto hbase hup hmem hne content with
            ⟨e, hmove, hdisk⟩ | ⟨t', disk', hmove, hdisk, hfollows⟩
          · rw [hmove, hdisk]
            exact .inl ⟨_, rfl, rfl⟩
          · rw [hmove, hdisk]
            have hstill := file_of_moveInto hup hfile hmove
            have hdirs := moveInto_dirs hup hmove
            have hbase' : disk'.walk base = .ok top :=
              walk_mono (hfollows.dirs h hdirs) h.dir hbase
            have hself : disk'.walk (base ++ pieces) = .ok (top ++ place)
                ↔ t'.walk pieces = .ok place := by
              rw [hfollows.nested.walk hbase' hup]
              cases t'.walk pieces <;> simp [Except.map]
            refine .inr ⟨_, _, rfl, rfl, ?_⟩
            dsimp only
            rw [ite_congr (propext hself) (fun _ => rfl) fun _ => rfl]
            split
            · exact ⟨hfollows, hdirs⟩
            · exact ⟨hfollows.trans (hfollows.nested.erase (ne_nil_of_file hstill)),
                fun q hq => erase_dirs (ne_dir_of_file hstill) (hdirs q hq)⟩

end Nested

end Depot.Files.Tree
