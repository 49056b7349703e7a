/-
What is where after a change of a tree: directories are made along a path
(`node?_makeDirs`), a file is moved to the place of a path
(`node?_moveInto`), a file is removed from there (`node?_removeFile`). A
directory is never lost, and a closed tree stays closed.
-/
import Depot.Proofs.Files.Walk

namespace Depot.Files.Tree

variable {t t' : Tree} {place : Place} {pieces : List String}

-- ===================================================== single nodes

/-- Trees with the same nodes are the same. -/
theorem eq_of_nodes (h : ∀ q : Place, t'.nodes[q]? = t.nodes[q]?) : t' = t := by
  have hnodes : t'.nodes = t.nodes := Std.ExtTreeMap.ext_getElem? h
  cases t
  cases t'
  exact congrArg Tree.mk hnodes

theorem node?_insert {at' : Place} (h : at' ≠ []) (node : Node) (place : Place) :
    (⟨t.nodes.insert at' node⟩ : Tree).node? place
      = if place = at' then some node else t.node? place := by
  by_cases hnil : place = []
  · subst hnil
    rw [node?_nil, node?_nil, if_neg (Ne.symm h)]
  · rw [node?_of_ne hnil, node?_of_ne hnil, Std.ExtTreeMap.getElem?_insert]
    by_cases hplace : place = at'
    · subst hplace
      simp
    · rw [if_neg hplace, if_neg (by simpa using Ne.symm hplace)]

theorem node?_erase {at' : Place} (h : at' ≠ []) (place : Place) :
    (⟨t.nodes.erase at'⟩ : Tree).node? place = if place = at' then none else t.node? place := by
  by_cases hnil : place = []
  · subst hnil
    rw [node?_nil, node?_nil, if_neg (Ne.symm h)]
  · rw [node?_of_ne hnil, node?_of_ne hnil, Std.ExtTreeMap.getElem?_erase]
    by_cases hplace : place = at'
    · subst hplace
      simp
    · rw [if_neg hplace, if_neg (by simpa using Ne.symm hplace)]

/-- A closed tree stays closed when a node is put in a directory, in place
of no directory. -/
theorem Closed.insert (hclosed : t.Closed) {name : String} (hdir : t.node? place = some .dir)
    (hlen : name.utf8ByteSize ≤ maxName) (node : Node)
    (hnode : t.node? (place ++ [name]) ≠ some .dir) :
    (⟨t.nodes.insert (place ++ [name]) node⟩ : Tree).Closed := by
  have hne : place ++ [name] ≠ [] := by simp
  constructor
  · intro above last hsome
    rw [node?_insert hne] at hsome ⊢
    split at hsome
    · next heq =>
      obtain ⟨rfl, -⟩ := List.append_inj' heq rfl
      rw [if_neg (by simp)]
      exact hdir
    · have hbelow := hclosed.below above last hsome
      rw [if_neg]
      · exact hbelow
      · intro heq
        subst heq
        exact hnode hbelow
  · intro above last hsome
    rw [node?_insert hne] at hsome
    split at hsome
    · next heq =>
      obtain ⟨-, hlast⟩ := List.append_inj' heq rfl
      cases hlast
      exact hlen
    · exact hclosed.short above last hsome

/-- It stays closed when what is no directory is erased. -/
theorem Closed.erase (hclosed : t.Closed) (hne : place ≠ []) (hnode : t.node? place ≠ some .dir) :
    (⟨t.nodes.erase place⟩ : Tree).Closed := by
  have hold : ∀ q, (⟨t.nodes.erase place⟩ : Tree).node? q ≠ none → t.node? q ≠ none := by
    intro q hq
    rw [node?_erase hne] at hq
    split at hq
    · exact absurd rfl hq
    · exact hq
  constructor
  · intro above last hsome
    have hbelow := hclosed.below above last (hold _ hsome)
    rw [node?_erase hne, if_neg]
    · exact hbelow
    · intro heq
      subst heq
      exact hnode hbelow
  · intro above last hsome
    exact hclosed.short above last (hold _ hsome)

-- ===================================================== making directories

/-- The places that are passed from `place` on along names. -/
def Along (place : Place) (names : List String) (q : Place) : Prop :=
  ∃ passed, passed <+: names ∧ q = place ++ passed

theorem along_nil {q : Place} : Along place [] q ↔ q = place := by
  unfold Along
  constructor
  · intro h
    obtain ⟨passed, hpassed, rfl⟩ := h
    rw [List.prefix_nil.1 hpassed, List.append_nil]
  · intro heq
    subst heq
    exact ⟨[], List.nil_prefix, (List.append_nil _).symm⟩

theorem along_cons {name : String} {rest : List String} {q : Place} :
    Along place (name :: rest) q ↔ q = place ∨ Along (place ++ [name]) rest q := by
  unfold Along
  constructor
  · intro h
    obtain ⟨passed, hpassed, rfl⟩ := h
    rcases List.prefix_cons_iff.1 hpassed with rfl | ⟨more, rfl, hmore⟩
    · exact .inl (List.append_nil _)
    · exact .inr ⟨more, hmore, by simp⟩
  · intro h
    obtain rfl | ⟨more, hmore, rfl⟩ := h
    · exact ⟨[], List.nil_prefix, (List.append_nil _).symm⟩
    · exact ⟨name :: more, List.prefix_cons_iff.2 (.inr ⟨more, rfl, hmore⟩), by simp⟩

/-- A tree with some directories more, all of them at places of a kind. -/
structure Grown (t t' : Tree) (kind : Place → Prop) : Prop where
  node : ∀ q, t'.node? q = t.node? q
    ∨ (t.node? q = none ∧ t'.node? q = some .dir ∧ kind q)
  closed : t.Closed → t'.Closed

theorem Grown.refl (t : Tree) (kind : Place → Prop) : Grown t t kind :=
  ⟨fun _ => .inl rfl, id⟩

theorem Grown.mono {kind kind' : Place → Prop} (h : Grown t t' kind)
    (hkind : ∀ q, kind q → kind' q) :
    Grown t t' kind' :=
  ⟨fun q => (h.node q).imp id fun ⟨hnone, hdir, hq⟩ => ⟨hnone, hdir, hkind q hq⟩, h.closed⟩

theorem Grown.trans {t'' : Tree} {kind : Place → Prop} (h : Grown t t' kind)
    (h' : Grown t' t'' kind) : Grown t t'' kind := by
  refine ⟨fun q => ?_, fun hclosed => h'.closed (h.closed hclosed)⟩
  rcases h'.node q with heq | ⟨hnone, hdir, hkind⟩
  · rw [heq]
    exact h.node q
  · rcases h.node q with heq | ⟨-, hdir', -⟩
    · exact .inr ⟨heq.symm.trans hnone, hdir, hkind⟩
    · rw [hdir'] at hnone
      cases hnone

/-- A directory that was there is still there. -/
theorem Grown.dir {kind : Place → Prop} (h : Grown t t' kind) {q : Place}
    (hdir : t.node? q = some .dir) : t'.node? q = some .dir := by
  rcases h.node q with heq | ⟨-, hdir', -⟩
  · rw [heq, hdir]
  · exact hdir'

/-- The directories that are made are along the path, and all are there if
the last one is. -/
theorem makeDirsFrom_spec (pieces : List String) (hup : ".." ∉ pieces) (t : Tree) (place : Place) :
    Grown t (t.makeDirsFrom place pieces).1 (Along place (names pieces))
      ∧ ∀ dest, (t.makeDirsFrom place pieces).2 = .ok dest → pieces ≠ [] →
          t.node? place = some .dir
            ∧ ∀ q, Along place (names pieces) q →
                (t.makeDirsFrom place pieces).1.node? q = some .dir := by
  induction pieces generalizing t place with
  | nil => exact ⟨.refl t _, fun _ _ h => absurd rfl h⟩
  | cons piece rest ih =>
      have hpiece : piece ≠ ".." := fun heq => hup (by simp [heq])
      have hrest : ".." ∉ rest := fun hmem => hup (by simp [hmem])
      have halong : ∀ q, Along (place ++ names [piece]) (names rest) q →
          Along place (names (piece :: rest)) q := by
        intro q hq
        rw [← List.singleton_append, names_append]
        cases hidle : Path.isIdle piece with
        | true =>
            rw [names_idle hidle] at hq ⊢
            rwa [List.append_nil] at hq
        | false =>
            rw [names_singleton hidle] at hq ⊢
            exact along_cons.2 (.inr hq)
      have hpassed : ∀ q, Along place (names (piece :: rest)) q →
          q = place ∨ Along (place ++ names [piece]) (names rest) q := by
        intro q hq
        rw [← List.singleton_append, names_append] at hq
        cases hidle : Path.isIdle piece with
        | true =>
            rw [names_idle hidle] at hq ⊢
            rw [List.append_nil]
            exact .inr hq
        | false =>
            rw [names_singleton hidle] at hq ⊢
            exact along_cons.1 hq
      unfold makeDirsFrom makeStep
      dsimp only
      cases hstep : t.step place piece with
      | ok next =>
          obtain ⟨hdir, rfl, -⟩ := step_ok hstep hpiece
          dsimp only
          by_cases hlast : rest.isEmpty = true ∧ t.node? (place ++ names [piece]) ≠ some .dir
          · rw [if_pos hlast]
            exact ⟨.refl t _, nofun⟩
          · rw [if_neg hlast]
            dsimp only
            obtain ⟨hgrown, hok⟩ := ih hrest t (place ++ names [piece])
            refine ⟨hgrown.mono halong, fun dest hdest _ => ⟨hdir, fun q hq => ?_⟩⟩
            rcases hpassed q hq with rfl | hq
            · exact hgrown.dir hdir
            · cases rest with
              | nil =>
                  rw [along_nil.1 hq]
                  exact Classical.byContradiction fun hno => hlast ⟨rfl, hno⟩
              | cons piece' rest => exact (hok dest hdest (List.cons_ne_nil _ _)).2 q hq
      | error e =>
          cases e with
          | notFound =>
              dsimp only
              obtain ⟨hdir, hname, hlen, hnone⟩ := step_notFound hstep hpiece
              have hne : place ++ [piece] ≠ [] := by simp
              rw [names_singleton hname] at halong hpassed
              have hself : Along (place ++ [piece]) (names rest) (place ++ [piece]) :=
                ⟨[], List.nil_prefix, (List.append_nil _).symm⟩
              have hmade : Grown t ⟨t.nodes.insert (place ++ [piece]) .dir⟩
                  (Along place (names (piece :: rest))) := by
                refine ⟨fun q => ?_, fun hclosed => hclosed.insert hdir hlen .dir (by simp [hnone])⟩
                rw [node?_insert hne]
                split
                · next heq =>
                  subst heq
                  exact .inr ⟨hnone, rfl, halong _ hself⟩
                · exact .inl rfl
              obtain ⟨hgrown, hok⟩ :=
                ih hrest ⟨t.nodes.insert (place ++ [piece]) .dir⟩ (place ++ [piece])
              refine ⟨hmade.trans (hgrown.mono halong), fun dest hdest _ => ⟨hdir, fun q hq => ?_⟩⟩
              rcases hpassed q hq with rfl | hq
              · exact hgrown.dir (hmade.dir hdir)
              · cases rest with
                | nil =>
                    rw [along_nil.1 hq]
                    show (⟨t.nodes.insert (place ++ [piece]) .dir⟩ : Tree).node? _ = _
                    rw [node?_insert hne, if_pos rfl]
                | cons piece' rest => exact (hok dest hdest (List.cons_ne_nil _ _)).2 q hq
          | busy | «exists» | notDirectory | isDirectory | nameTooLong | nulInName | onPath =>
              exact ⟨.refl t _, nofun⟩

/-- Making directories makes no other nodes than directories along the
path. -/
theorem grown_makeDirs (t : Tree) (hup : ".." ∉ pieces) :
    Grown t (t.makeDirs pieces).1 (· <+: names pieces) := by
  refine (makeDirsFrom_spec pieces hup t []).1.mono ?_
  intro q h
  obtain ⟨passed, hpassed, rfl⟩ := h
  exact hpassed

/-- What is where once all directories along a path are made. -/
theorem node?_makeDirs {dest : Place} (hup : ".." ∉ pieces) (h : t.makeDirs pieces = (t', .ok dest))
    (q : Place) : t'.node? q = if q <+: names pieces then some .dir else t.node? q := by
  have hspec := makeDirsFrom_spec pieces hup t []
  change t.makeDirsFrom [] pieces = _ at h
  rw [h] at hspec
  obtain ⟨hgrown, hok⟩ := hspec
  by_cases hq : q <+: names pieces
  · rw [if_pos hq]
    cases pieces with
    | nil =>
        rw [List.prefix_nil.1 hq]
        exact node?_nil t'
    | cons piece rest => exact (hok dest rfl (List.cons_ne_nil _ _)).2 q ⟨q, hq, rfl⟩
  · rw [if_neg hq]
    rcases hgrown.node q with heq | ⟨-, -, passed, hpassed, rfl⟩
    · exact heq
    · exact absurd hpassed hq

-- ===================================================== moving files

/-- Whether a path can lead to a file: it ends in a name. -/
def isFilePath (pieces : List String) : Bool := pieces.getLast?.any fun piece => !Path.isIdle piece

theorem isFilePath_iff : isFilePath pieces = true
    ↔ ∃ above name, pieces = above ++ [name] ∧ Path.isIdle name = false := by
  unfold isFilePath
  constructor
  · intro h
    obtain ⟨name, hlast, hname⟩ := (Option.any_eq_true _ _).1 h
    obtain ⟨above, rfl⟩ := List.getLast?_eq_some_iff.1 hlast
    exact ⟨above, name, rfl, by simpa using hname⟩
  · intro h
    obtain ⟨above, name, rfl, hname⟩ := h
    simp [hname]

/-- The last name of a path is not too long. -/
def EndsShort (pieces : List String) : Prop :=
  ∀ name, pieces.getLast? = some name → name.utf8ByteSize ≤ maxName

/-- A path that ends in a name leads below the top. -/
theorem names_ne_nil (h : isFilePath pieces = true) : names pieces ≠ [] := by
  obtain ⟨above, name, rfl, hname⟩ := isFilePath_iff.1 h
  rw [names_concat above hname]
  simp

/-- The directory of such a path. -/
theorem dropLast_names (above : List String) {name : String} (hname : Path.isIdle name = false) :
    (names (above ++ [name])).dropLast = names above := by
  rw [names_concat above hname, List.dropLast_concat]

/-- A file is moved to the place of a path that ends in a name, in a
directory, and never in place of a directory. -/
theorem moveInto_ok {content : Bytes} (hup : ".." ∉ pieces)
    (h : t.moveInto pieces content = .ok t') :
    isFilePath pieces = true ∧ EndsShort pieces ∧ t.node? (names pieces).dropLast = some .dir
      ∧ t.node? (names pieces) ≠ some .dir ∧ t' = t.put (names pieces) content := by
  unfold moveInto dropSlashes at h
  generalize hreverse : pieces.reverse = backwards at h
  have hpieces : pieces = backwards.reverse := by rw [← hreverse, List.reverse_reverse]
  subst hpieces
  clear hreverse
  split at h
  · cases h
  · next name above slash heq =>
    split at heq
    · -- a slash at the end
      obtain ⟨-, rfl⟩ := Prod.mk.inj heq
      simp only [↓reduceIte] at h
      split at h
      · cases h
      · split at h
        · cases h
        · split at h
          · cases h
          · split at h <;> cases h
    · next hlast =>
      obtain ⟨rfl, rfl⟩ := Prod.mk.inj heq
      rw [List.reverse_cons] at hup ⊢
      split at h
      · cases h
      · next dir hwalk =>
        split at h
        · cases h
        · next hdir =>
          split at h
          · cases h
          · next hdots =>
            split at h
            · cases h
            · next hlen =>
              rw [if_neg (by decide)] at h
              split at h
              · cases h
              · next hnode =>
                cases h
                have hname : Path.isIdle name = false := by
                  have hempty : name ≠ "" := fun heq => hlast above (by rw [heq])
                  unfold Path.isIdle
                  simp [hempty, not_or.1 hdots]
                rw [walk_eq hwalk fun hmem => hup (by simp [List.mem_reverse.1 hmem])]
                  at hdir hnode ⊢
                refine ⟨isFilePath_iff.2 ⟨_, name, rfl, hname⟩, ?_, ?_⟩
                · intro last hlast
                  rw [List.getLast?_concat] at hlast
                  cases hlast
                  omega
                · rw [dropLast_names _ hname, names_concat _ hname]
                  exact ⟨Classical.not_not.1 hdir, hnode, rfl⟩

/-- What is where once a file is put in place. -/
theorem node?_put (hne : place ≠ []) (content : Bytes) (q : Place) :
    (t.put place content).node? q = if q = place then some (.file content) else t.node? q :=
  node?_insert hne _ q

/-- Of two contents that are written, the later one is there. -/
theorem put_put (t : Tree) (place : Place) (a b : Bytes) :
    (t.put place a).put place b = t.put place b := by
  refine eq_of_nodes fun q => ?_
  unfold put
  simp only [Std.ExtTreeMap.getElem?_insert]
  split <;> rfl

theorem moveInto_closed {content : Bytes} (hup : ".." ∉ pieces)
    (h : t.moveInto pieces content = .ok t') (hclosed : t.Closed) : t'.Closed := by
  obtain ⟨hfile, hshort, hdir, hnode, rfl⟩ := moveInto_ok hup h
  obtain ⟨above, name, rfl, hname⟩ := isFilePath_iff.1 hfile
  rw [dropLast_names above hname] at hdir
  rw [names_concat above hname] at hnode ⊢
  exact hclosed.insert hdir (hshort name (List.getLast?_concat ..)) _ hnode

-- ===================================================== removing files

/-- Where a path leads that cannot lead to a file, there is a directory. -/
theorem dir_of_walk {dest : Place} (h : t.walk pieces = .ok dest) (hup : ".." ∉ pieces)
    (hfile : isFilePath pieces = false) : t.node? dest = some .dir := by
  rcases List.eq_nil_or_concat pieces with rfl | ⟨above, piece, rfl⟩
  · cases h
    exact node?_nil t
  · rw [List.concat_eq_append] at h hup hfile
    have hidle : Path.isIdle piece = true := by simpa [isFilePath] using hfile
    rw [walk_append] at h
    cases habove : t.walk above with
    | error e =>
        rw [habove] at h
        cases h
    | ok dir =>
        rw [habove] at h
        obtain ⟨hdir, rfl, -⟩ := step_ok h fun heq => hup (by simp [heq])
        rw [names_idle hidle, List.append_nil]
        exact hdir

/-- In a closed tree, a path that ends in a name leads to what is at the
place of its names. -/
theorem walk_of_node (hclosed : t.Closed) (hup : ".." ∉ pieces) (hfile : isFilePath pieces = true)
    (hnode : t.node? (names pieces) ≠ none) : t.walk pieces = .ok (names pieces) := by
  obtain ⟨above, name, rfl, hname⟩ := isFilePath_iff.1 hfile
  rw [names_concat above hname] at hnode
  rw [walk_concat hclosed hup hname (hclosed.below _ _ hnode) (hclosed.short _ _ hnode),
    names_concat above hname, if_pos (Option.isSome_iff_ne_none.2 hnode)]

theorem file?_eq_some {content : Bytes} :
    t.file? place = some content ↔ t.node? place = some (.file content) := by
  unfold file?
  cases h : t.node? place with
  | none => simp
  | some node => cases node <;> simp

/-- Removing erases the file at the place of a path that ends in a name, if
there is one. -/
theorem removeFile_eq (hclosed : t.Closed) (hup : ".." ∉ pieces) :
    t.removeFile pieces
      = if isFilePath pieces = true ∧ (t.file? (names pieces)).isSome = true then
          ⟨t.nodes.erase (names pieces)⟩
        else t := by
  unfold removeFile
  cases hwalk : t.walk pieces with
  | error e =>
      rw [if_neg]
      intro h
      obtain ⟨hfile, hsome⟩ := h
      obtain ⟨content, hcontent⟩ := Option.isSome_iff_exists.1 hsome
      have hnode := file?_eq_some.1 hcontent
      rw [walk_of_node hclosed hup hfile (by simp [hnode])] at hwalk
      cases hwalk
  | ok dest =>
      obtain rfl := walk_eq hwalk hup
      dsimp only
      cases hfile : isFilePath pieces with
      | true => simp only [true_and]
      | false =>
          have hdir := dir_of_walk hwalk hup hfile
          rw [if_neg, if_neg (by simp)]
          unfold file?
          rw [hdir]
          exact Bool.false_ne_true

/-- What is where once a file is removed. -/
theorem node?_removeFile (hclosed : t.Closed) (hup : ".." ∉ pieces) (q : Place) :
    (t.removeFile pieces).node? q
      = if isFilePath pieces = true ∧ q = names pieces ∧ (t.file? q).isSome = true then none
        else t.node? q := by
  rw [removeFile_eq hclosed hup]
  split
  · next h =>
    rw [node?_erase (names_ne_nil h.1)]
    by_cases hq : q = names pieces
    · rw [if_pos hq, if_pos ⟨h.1, hq, hq ▸ h.2⟩]
    · rw [if_neg hq, if_neg fun h => hq h.2.1]
  · next h =>
    rw [if_neg]
    intro h
    obtain ⟨hfile, rfl, hsome⟩ := h
    exact h ⟨hfile, hsome⟩

theorem removeFile_closed (hclosed : t.Closed) (hup : ".." ∉ pieces) :
    (t.removeFile pieces).Closed := by
  rw [removeFile_eq hclosed hup]
  split
  · next h =>
    obtain ⟨content, hcontent⟩ := Option.isSome_iff_exists.1 h.2
    exact hclosed.erase (names_ne_nil h.1) (by simp [file?_eq_some.1 hcontent])
  · exact hclosed

end Depot.Files.Tree
