/-
What keeps a blob from being put. At a relpath of plain names (`Plain`),
above which there are no files, a commit of one blob is refused for its
directory or for its file (`Store.refusal?`) and for nothing else: a path
has a NUL or is too long, a name is too long, or there is a directory
where the file is to be (`commit_one`). Uploads have such relpaths
(`plain_ofUpload`).
-/
import Depot.Proofs.CommandLine.Serving
import Depot.Proofs.Store.Apart

namespace Depot

open Files Files.Tree Text

-- ===================================================== relpaths of plain names

namespace Relpath

theorem isValid_slash {a b : String} (ha : isValid a = true) (hb : isValid b = true) :
    isValid (a ++ "/" ++ b) = true := by
  obtain ⟨hne, habs, hhere, hup, hback, hnul⟩ := isValid_iff.1 ha
  obtain ⟨-, -, -, hup', hback', hnul'⟩ := isValid_iff.1 hb
  have hassoc : a ++ "/" ++ b = a ++ ("/" ++ b) := String.append_assoc
  have hhead : (split '/' (a ++ "/" ++ b)).head? = (split '/' a).head? := by
    rw [split_slash, List.head?_append, Option.or_of_isSome]
    exact List.isSome_head?.2 (split_ne_nil _ _)
  refine isValid_iff.2 ⟨?_, ?_, ?_, ?_, ?_, ?_⟩
  · rw [hassoc]
    intro heq
    exact hne (String.append_eq_empty_iff.1 heq).1
  · rw [hassoc, Path.isAbsolute_append hne]
    exact habs
  · rwa [hhead]
  · rw [split_slash, List.mem_append, not_or]
    exact ⟨hup, hup'⟩
  · simp [hback, hback']
  · simp [hnul, hnul']

/-- A relpath that is names: those of directories, and that of a file. -/
structure Plain (relpath : String) (above : List String) (name : String) : Prop where
  valid : isValid relpath = true
  pieces : Store.pieces relpath = above ++ [name]
  named : ∀ piece ∈ above ++ [name], Path.isIdle piece = false

variable {relpath name : String} {above : List String}

namespace Plain

theorem place (h : Plain relpath above name) : Store.place relpath = above ++ [name] := by
  unfold Store.place names
  rw [h.pieces]
  exact List.filter_eq_self.2 fun piece hpiece => by rw [h.named piece hpiece]; rfl

theorem names_above (h : Plain relpath above name) : names above = above :=
  List.filter_eq_self.2 fun piece hpiece => by
    rw [h.named piece (List.mem_append_left _ hpiece)]
    rfl

theorem named_last (h : Plain relpath above name) : Path.isIdle name = false :=
  h.named name (List.mem_append_right _ (List.mem_singleton_self _))

theorem up (h : Plain relpath above name) : ".." ∉ above ++ [name] := by
  rw [← h.pieces]
  exact up_not_mem h.valid

theorem basename (h : Plain relpath above name) : Relpath.basename relpath = name := by
  unfold Relpath.basename afterLast
  rw [show split '/' relpath = above ++ [name] from h.pieces, List.getLastD_concat]

theorem parentPieces (h : Plain relpath above name) : Transaction.parentPieces relpath = above := by
  have hback : Path.namesBackwards relpath = name :: above.reverse := by
    unfold Path.namesBackwards
    rw [show split '/' relpath = above ++ [name] from h.pieces, List.reverse_concat,
      List.dropWhile_cons_of_neg (by simp [h.named_last])]
  unfold Transaction.parentPieces
  rw [hback, List.tail_cons, List.dropWhile_eq_self_iff.2, List.reverse_reverse]
  intro hlen
  rw [h.named _ (List.mem_append_left _ (List.mem_reverse.1 (List.getElem_mem hlen)))]
  exact Bool.false_ne_true

end Plain

/-- The relpath of an upload is six names. -/
theorem plain_ofUpload {user index basename : String} {spec : HashSpec}
    (hnames : Entry.isUpload user index basename = true) (hspec : spec.Genuine) :
    Plain (ofUpload user index spec basename)
      [user, index, uploadDir, spec.shards.1, spec.shards.2] basename := by
  have hsound : Origin.Sound (.uploaded user index spec basename) := .upload hnames hspec
  obtain ⟨huser, hindex, hbase, hdigest⟩ := hsound.names
  obtain ⟨hfirst, hsecond, -⟩ := Origin.isIdle_shards hdigest
  obtain ⟨-, -, hup, hpiece⟩ := isPlainName_iff.1 hindex
  have hlead : isValid (user ++ "/" ++ index ++ "/" ++ uploadDir) = true :=
    (isValid_three huser hpiece (by decide)).2 hup
  have hpieces := Origin.split_relpath hsound
  unfold Origin.relpath Origin.pieces at hpieces
  dsimp only at hpieces
  have hdir : Path.isIdle uploadDir = false := by decide
  refine ⟨isValid_slash hlead (isValid_ofHash hdigest hbase), hpieces, ?_⟩
  simp only [List.cons_append, List.nil_append, List.forall_mem_cons, List.not_mem_nil,
    false_implies, implies_true, and_true]
  refine ⟨Origin.isIdle_of_plain huser, Origin.isIdle_of_plain hindex, hdir, hfirst, hsecond, ?_⟩
  exact Origin.isIdle_of_plain hbase

end Relpath

-- ===================================================== making and moving

namespace Files.Tree

variable {t : Tree} {place : Place} {pieces : List String}

/-- Whether a name is too long. -/
def isTooLong (name : String) : Bool := maxName < name.utf8ByteSize

/-- Where names lead through no files, directories are made along them
unless one is too long. -/
theorem makeDirsFrom_names (hnames : ∀ piece ∈ pieces, Path.isIdle piece = false ∧ piece ≠ "..")
    (hdir : t.node? place = some .dir)
    (hclear : ∀ q content, q <+: pieces → t.node? (place ++ q) ≠ some (.file content)) :
    (t.makeDirsFrom place pieces).2
      = if pieces.any isTooLong then .error .nameTooLong else .ok (place ++ pieces) := by
  induction pieces generalizing t place with
  | nil => simp [makeDirsFrom]
  | cons piece rest ih =>
      obtain ⟨hname, hup⟩ := hnames piece (List.mem_cons_self ..)
      have hrest := fun p hp => hnames p (List.mem_cons_of_mem _ hp)
      have hstep := step_name hdir hname hup
      have hlonger : ∀ q content, q <+: rest →
          t.node? (place ++ [piece] ++ q) ≠ some (.file content) := by
        intro q content hq
        rw [List.append_assoc]
        exact hclear (piece :: q) content (List.cons_prefix_cons.2 ⟨rfl, hq⟩)
      rw [List.any_cons]
      unfold makeDirsFrom makeStep
      dsimp only
      rw [hstep]
      by_cases hlong : maxName < piece.utf8ByteSize
      · rw [if_pos hlong, show isTooLong piece = true from decide_eq_true hlong]
        rfl
      · rw [if_neg hlong, show isTooLong piece = false from decide_eq_false hlong, Bool.false_or]
        cases hnode : t.node? (place ++ [piece]) with
        | some node =>
            have hnext : t.node? (place ++ [piece]) = some .dir := by
              cases node with
              | dir => exact hnode
              | file content =>
                  have hnot := hlonger [] content List.nil_prefix
                  rw [List.append_nil] at hnot
                  exact absurd hnode hnot
            rw [if_pos (show (some node).isSome = true from rfl)]
            dsimp only
            rw [if_neg (by simp [hnext])]
            dsimp only
            rw [ih hrest hnext hlonger, List.append_assoc]
            rfl
        | none =>
            have hinsert : ∀ q, (⟨t.nodes.insert (place ++ [piece]) .dir⟩ : Tree).node? q
                = if q = place ++ [piece] then some .dir else t.node? q :=
              node?_insert (by simp) .dir
            rw [if_neg (by simp)]
            dsimp only
            rw [ih hrest ((hinsert _).trans (if_pos rfl)) ?_, List.append_assoc]
            · rfl
            · intro q content hq
              rw [hinsert]
              split
              · intro hfile
                cases hfile
              · exact hlonger q content hq

/-- A file is moved into a directory unless its name is too long or that of
a directory. -/
theorem moveInto_name (hclosed : t.Closed) {above : List String} {name : String}
    (hup : ".." ∉ above ++ [name]) (hname : Path.isIdle name = false)
    (hdir : t.node? (names above) = some .dir) (content : Bytes) :
    t.moveInto (above ++ [name]) content
      = if isTooLong name then .error .nameTooLong
        else if t.node? (names above ++ [name]) = some .dir then .error .isDirectory
        else .ok (t.put (names above ++ [name]) content) := by
  have hempty : name ≠ "" := by
    intro heq
    rw [heq] at hname
    cases hname
  have hhere : name ≠ "." := by
    intro heq
    rw [heq] at hname
    cases hname
  have hdots : name ≠ ".." := fun heq => hup (by simp [heq])
  have hdropped : dropSlashes (above ++ [name]) = (name :: above.reverse, false) := by
    unfold dropSlashes
    rw [List.reverse_concat]
    split
    · next heq => exact absurd (List.cons.inj heq).1 hempty
    · rfl
  unfold moveInto isTooLong
  rw [hdropped]
  dsimp only
  rw [List.reverse_reverse, walk_dir hclosed (fun hmem => hup (by simp [hmem])) hdir]
  dsimp only
  rw [if_neg (by simp [hdir]), if_neg (by simp [hhere, hdots])]
  simp only [decide_eq_true_eq, Bool.false_eq_true, ↓reduceIte]

end Files.Tree

-- ===================================================== commits of one blob

namespace Store

/-- Why the directory of a relpath is not made, or has no room for a
temporary file. -/
def dirRefusal? (store : Store) (relpath : String) : Option StoreError :=
  let dir := Path.parent (Path.join store.filesRoot relpath)
  let path := store.scratchPath relpath
  ((Files.refusal? dir).or
    ((if (Transaction.parentPieces relpath).any isTooLong then some .nameTooLong else none).or
      ((Files.refusal? path).map (.onPath path)))).map (.io dir)

/-- Why no file is put in its place in the directory. -/
def fileRefusal? (store : Store) (relpath : String) : Option StoreError :=
  let path := Path.join store.filesRoot relpath
  ((Files.refusal? path).or
    (if isTooLong (Relpath.basename relpath) then some .nameTooLong
      else if store.files.node? (place relpath) = some .dir then some .isDirectory else none)).map
      (.io path)

/-- Why no blob is put at a relpath. -/
def refusal? (store : Store) (relpath : String) : Option StoreError :=
  (store.dirRefusal? relpath).or (store.fileRefusal? relpath)

/-- Where a blob is put, there is no directory. -/
theorem ne_dir_of_refusal? {store : Store} {relpath : String}
    (h : store.refusal? relpath = none) : store.files.node? (place relpath) ≠ some .dir := by
  intro hdir
  obtain ⟨-, hfile⟩ := Option.or_eq_none_iff.1 h
  obtain ⟨-, hnode⟩ := Option.or_eq_none_iff.1 (Option.map_eq_none_iff.1 hfile)
  rw [if_pos hdir] at hnode
  split at hnode <;> cases hnode

end Store

/-- The answer of what is refused for a reason, if there is one. -/
def StoreError.refuse : Option StoreError → Except StoreError Unit
  | some e => .error e
  | none => .ok ()

theorem StoreError.refuse_eq_error {reason : Option StoreError} {e : StoreError} :
    refuse reason = .error e ↔ reason = some e := by
  cases reason <;> simp [refuse]

theorem StoreError.refuse_eq_ok {reason : Option StoreError} :
    refuse reason = .ok () ↔ reason = none := by
  cases reason <;> simp [refuse]

namespace Transaction

variable {tx : Transaction} {store after : Store} {relpath name : String} {above : List String}
  {content : Bytes}

/-- Nothing that is no directory lies where directories are to be. -/
def Clear (store : Store) (above : List String) : Prop :=
  ∀ q content, q <+: above → store.files.node? q ≠ some (.file content)

/-- Staging fails for the directory. -/
theorem stage_plain (h : Relpath.Plain relpath above name) (hclear : Clear store above)
    (content : Bytes) :
    (stage store (relpath, content)).2 = StoreError.refuse (store.dirRefusal? relpath) := by
  have hnamed : ∀ piece ∈ above, Path.isIdle piece = false ∧ piece ≠ ".." := by
    intro piece hpiece
    have hmem : piece ∈ above ++ [name] := List.mem_append_left _ hpiece
    refine ⟨h.named piece hmem, fun heq => h.up ?_⟩
    rwa [← heq]
  have hmade : (store.files.makeDirs above).2
      = if above.any isTooLong then .error .nameTooLong else .ok above :=
    makeDirsFrom_names hnamed (node?_nil store.files) hclear
  rw [← h.parentPieces] at hmade
  have hstages := stages store (relpath, content)
  unfold Store.dirRefusal?
  dsimp only
  generalize stage store (relpath, content) = staged at hstages ⊢
  obtain ⟨after, answer⟩ := staged
  dsimp only at hstages ⊢
  cases hstages with
  | refused hdir =>
      rw [hdir]
      rfl
  | unmade hdir hmake =>
      rw [hmake] at hmade
      rw [hdir]
      split at hmade
      · next hlong =>
        cases hmade
        rw [if_pos hlong]
        rfl
      · cases hmade
  | cramped hdir hmake hscratch =>
      rw [hmake] at hmade
      rw [hdir, hscratch]
      split at hmade
      · cases hmade
      · next hlong =>
        rw [if_neg hlong]
        rfl
  | made hdir hmake hscratch =>
      rw [hmake] at hmade
      rw [hdir, hscratch]
      split at hmade
      · cases hmade
      · next hlong =>
        rw [if_neg hlong]
        rfl

/-- Moving fails for the file. -/
theorem move_plain (h : Relpath.Plain relpath above name) (hclosed : store.files.Closed)
    (hdir : store.files.node? above = some .dir) :
    (move store (relpath, content)).2 = StoreError.refuse (store.fileRefusal? relpath) := by
  have hmove := moveInto_name hclosed h.up h.named_last (by rwa [h.names_above]) content
  rw [h.names_above] at hmove
  unfold move reach Store.fileRefusal?
  dsimp only
  rw [h.pieces, h.basename, h.place]
  cases Files.refusal? (Path.join store.filesRoot relpath) with
  | some cause => rfl
  | none =>
      dsimp only
      rw [hmove, Option.none_or]
      cases isTooLong name with
      | true => rfl
      | false =>
          by_cases hdir' : store.files.node? (above ++ [name]) = some .dir
          · simp only [Bool.false_eq_true, ↓reduceIte, hdir']
            rfl
          · simp only [Bool.false_eq_true, ↓reduceIte, hdir']
            rfl

/-- Where the directory is made, there is the same to say of the file. -/
theorem move_staged {ready : Store} (h : Relpath.Plain relpath above name)
    (hclosed : store.files.Closed) (hready : stage store (relpath, content) = (ready, .ok ())) :
    (move ready (relpath, content)).2 = StoreError.refuse (store.fileRefusal? relpath) := by
  have hstages := stages_of_eq hready
  have hroot : ready.filesRoot = store.filesRoot := filesRoot_congr (by rw [hstages.frame])
  have hnode : ∀ q,
      ready.files.node? q = if q <+: above then some .dir else store.files.node? q := by
    intro q
    rw [hstages.node? h.valid, h.place, List.dropLast_concat]
  have hgrown := hstages.grown h.valid
  have hlonger : ¬above ++ [name] <+: above := fun hprefix => by
    have hlen := hprefix.length_le
    rw [List.length_append, List.length_singleton] at hlen
    omega
  rw [move_plain h (hgrown.closed hclosed) (by rw [hnode, if_pos (List.prefix_refl above)])]
  unfold Store.fileRefusal?
  rw [hroot, hnode, h.place, if_neg hlonger]

/-- A commit of one blob is refused for its directory or its file. -/
theorem Refused.one {e : StoreError} (hrefused : tx.Refused store after e)
    (h : Relpath.Plain relpath above name) (hstaged : tx.staged = [(relpath, content)])
    (hclosed : store.files.Closed) (hclear : Clear store above) :
    store.refusal? relpath = some e := by
  have hstage := stage_plain h hclear content
  unfold Refused stageAll moveAll at hrefused
  rw [hstaged] at hrefused
  simp only [inTurn_one] at hrefused
  unfold Store.refusal?
  rcases hrefused with hfail | ⟨ready, hready, hfail⟩
  · rw [hfail] at hstage
    rw [StoreError.refuse_eq_error.1 hstage.symm, Option.some_or]
  · have hmove := move_staged h hclosed hready
    rw [hready] at hstage
    rw [hfail] at hmove
    rw [StoreError.refuse_eq_ok.1 hstage.symm, Option.none_or,
      StoreError.refuse_eq_error.1 hmove.symm]

/-- Else it is not refused. -/
theorem Placed.one (hplaced : tx.Placed store after)
    (h : Relpath.Plain relpath above name) (hstaged : tx.staged = [(relpath, content)])
    (hclosed : store.files.Closed) (hclear : Clear store above) :
    store.refusal? relpath = none := by
  have hstage := stage_plain h hclear content
  unfold Placed stageAll moveAll at hplaced
  rw [hstaged] at hplaced
  simp only [inTurn_one] at hplaced
  obtain ⟨ready, hready, hdone⟩ := hplaced
  have hmove := move_staged h hclosed hready
  rw [hready] at hstage
  rw [hdone] at hmove
  unfold Store.refusal?
  rw [StoreError.refuse_eq_ok.1 hstage.symm, Option.none_or, StoreError.refuse_eq_ok.1 hmove.symm]

end Transaction

end Depot
