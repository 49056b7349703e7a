/-
What transactions see of blobs. A site is `Shelved` where every committed
relpath stands: it names a place that a file can lie at, in a directory.
All sites that steps lead to are (`Steps.shelved`), and there what a
transaction sees at a relpath is a matter of whether the relpath was
committed when it began and of what lies at its place now (`seen_eq`);
that it sees the same in two stores says that the same lies there
(`seen_eq_iff`).
-/
import Depot.Proofs.Store.Placing
import Depot.Proofs.Store.Site

namespace Depot

open Files Files.Tree Transaction

/-- What a transaction answers for the blob at a relpath. -/
structure Seen where
  has : Bool
  content : Except StoreError (Option Bytes)
  size : Except StoreError (Option Nat)

/-- The three answers of a transaction. -/
def Transaction.seen (tx : Transaction) (store : Store) (relpath : String) : Seen where
  has := tx.hasBlob store relpath
  content := tx.getBlob store relpath
  size := tx.blobSize store relpath

namespace Seen

/-- What is seen of a committed relpath. -/
def ofNode (path : String) : Option Node → Seen
  | none => ⟨false, .ok none, .ok none⟩
  | some .dir => ⟨false, .error (.io path .isDirectory), .ok none⟩
  | some (.file content) => ⟨true, .ok (some content), .ok (some content.length)⟩

/-- What is seen of a relpath that is not committed. -/
def absent (relpath : String) : Seen :=
  if Relpath.isValid relpath then ⟨false, .ok none, .ok none⟩
  else ⟨false, .error (.invalidRelpath relpath), .error (.invalidRelpath relpath)⟩

/-- Different nodes look different. -/
theorem ofNode_inj {path : String} {a b : Option Node} (h : ofNode path a = ofNode path b) :
    a = b := by
  have hcontent := congrArg Seen.content h
  cases a with
  | none => cases b with
    | none => rfl
    | some b => cases b <;> cases hcontent
  | some a => cases a with
    | dir => cases b with
      | none => cases hcontent
      | some b => cases b with
        | dir => rfl
        | file d => cases hcontent
    | file c => cases b with
      | none => cases hcontent
      | some b => cases b with
        | dir => cases hcontent
        | file d => cases hcontent; rfl

end Seen

namespace Transaction

variable {tx : Transaction} {store store' : Store} {view : Index} {relpath : String}

/-- A path at which a file can lie leads to what lies there. -/
theorem Stands.walk (h : Stands store relpath) (hclosed : store.files.Closed) :
    store.files.walk (Store.pieces relpath) =
      if (store.files.node? (Store.place relpath)).isSome then .ok (Store.place relpath)
      else .error .notFound := by
  have hup := Relpath.up_not_mem h.valid
  obtain ⟨above, name, heq, hname⟩ := isFilePath_iff.1 h.file
  have hdir := h.dir
  unfold Store.place at hdir ⊢
  rw [heq] at hup hdir ⊢
  rw [dropLast_names above hname] at hdir
  refine walk_concat hclosed hup hname hdir (h.short name ?_)
  rw [heq, List.getLast?_concat]

/-- What a transaction sees at a relpath that it has not changed. -/
theorem seen_eq (hview : tx.view = some view) (hpending : tx.blobs[relpath]? = none)
    (hclosed : store.files.Closed)
    (hstands : view.blobs.contains relpath = true → Stands store relpath) :
    tx.seen store relpath =
      if view.blobs.contains relpath then
        .ofNode (Path.join store.filesRoot relpath) (store.files.node? (Store.place relpath))
      else .absent relpath := by
  unfold seen hasBlob getBlob blobSize onDisk isCommitted Store.blobPath
  rw [hpending, observed_eq hview]
  cases hcommitted : view.blobs.contains relpath with
  | false =>
      unfold Seen.absent
      cases Relpath.isValid relpath <;> rfl
  | true =>
      have h := hstands hcommitted
      rw [h.valid]
      dsimp only [↓reduceIte]
      unfold reach isFile Tree.read size file?
      rw [h.taken, h.walk hclosed]
      cases hnode : store.files.node? (Store.place relpath) with
      | none => rfl
      | some node =>
          simp only [Option.isSome_some, ↓reduceIte, hnode]
          cases node <;> rfl

/-- A transaction sees the same in two stores just if the relpath was not
committed or the same lies at its place. -/
theorem seen_eq_iff (hview : tx.view = some view) (hpending : tx.blobs[relpath]? = none)
    (hroot : store'.root = store.root)
    (hclosed : store.files.Closed) (hclosed' : store'.files.Closed)
    (hstands : view.blobs.contains relpath = true → Stands store relpath)
    (hstands' : view.blobs.contains relpath = true → Stands store' relpath) :
    tx.seen store' relpath = tx.seen store relpath
      ↔ (view.blobs.contains relpath = true →
          store'.files.node? (Store.place relpath) = store.files.node? (Store.place relpath)) := by
  rw [seen_eq hview hpending hclosed hstands, seen_eq hview hpending hclosed' hstands',
    filesRoot_congr hroot]
  cases view.blobs.contains relpath with
  | false => simp
  | true =>
      simp only [↓reduceIte, forall_const]
      exact ⟨Seen.ofNode_inj, fun h => by rw [h]⟩

end Transaction

namespace Site

/-- Every relpath of an index stands. -/
def AllStand (store : Store) (index : Index) : Prop :=
  ∀ relpath, index.blobs.contains relpath = true → Stands store relpath

/-- The files of a site are as its transactions know them. -/
structure Shelved (s : Site) : Prop where
  closed : s.store.files.Closed
  pends : ∀ i tx, s.opened i = some tx → tx.Pends
  current : AllStand s.store s.store.index
  views : ∀ i tx view, s.opened i = some tx → tx.view = some view → AllStand s.store view

variable {s t : Site} {store after : Store} {who i : Nat} {tx : Transaction}

theorem shelved_empty (root cwd : String) : (empty root cwd).Shelved where
  closed := closed_empty
  pends _ _ h := nomatch h
  current _ h := by simp [empty] at h
  views _ _ _ h := nomatch h

theorem AllStand.mono {index : Index} (h : AllStand store index) (hroot : after.root = store.root)
    (hdirs : KeepsDirs store.files after.files) : AllStand after index :=
  fun relpath hmem => (h relpath hmem).mono hroot hdirs

/-- A change of one transaction and of the files keeps a site shelved. -/
theorem Shelved.settle (hs : s.Shelved) {tx : Option Transaction}
    (hroot : store.root = s.store.root) (hdirs : KeepsDirs s.store.files store.files)
    (hclosed : store.files.Closed)
    (hcurrent : AllStand store store.index) (hpends : ∀ u, tx = some u → u.Pends)
    (hviews : ∀ u view, tx = some u → u.view = some view → AllStand store view) :
    (s.settle store who tx).Shelved where
  closed := hclosed
  current := hcurrent
  pends := by
    intro i u hi
    by_cases hwho : i = who
    · subst hwho
      rw [settle_opened_self] at hi
      exact hpends u hi
    · rw [settle_opened_of_ne _ hwho] at hi
      exact hs.pends i u hi
  views := by
    intro i u view hi hview
    by_cases hwho : i = who
    · subst hwho
      rw [settle_opened_self] at hi
      exact hviews u view hi hview
    · rw [settle_opened_of_ne _ hwho] at hi
      exact (hs.views i u view hi hview).mono hroot hdirs

/-- A change of one transaction alone. -/
theorem Shelved.settle_same (hs : s.Shelved) {tx : Option Transaction}
    (hpends : ∀ u, tx = some u → u.Pends)
    (hviews : ∀ u view, tx = some u → u.view = some view → AllStand s.store view) :
    (s.settle s.store who tx).Shelved :=
  hs.settle rfl (.refl _) hs.closed hs.current hpends hviews

theorem pends_fresh (store : Store) (n : UInt64) (writable : Bool) :
    (fresh store n writable).Pends :=
  fun relpath content h => by simp [fresh] at h

/-- An edit adds a valid relpath, if any. -/
theorem pends_edit {tx' : Transaction} {e : Edit} (h : tx.Pends) (hedit : tx.edit e = .ok tx') :
    tx'.Pends := by
  have hchange : ∀ key value, tx.change key value = .ok tx' → tx'.Pends := by
    intro key value hedit
    obtain ⟨-, rfl⟩ := change_eq hedit
    exact h
  have hblob : ∀ relpath content, tx.changeBlob relpath content = .ok tx' → tx'.Pends := by
    intro relpath content hedit
    obtain ⟨-, hvalid, rfl⟩ := changeBlob_eq hedit
    intro r pending hr
    rw [Std.ExtTreeMap.getElem?_insert] at hr
    split at hr
    · next heq =>
      obtain rfl : relpath = r := by simpa using heq
      exact hvalid
    · exact h r pending hr
  cases e with
  | set key value => exact hchange key (some value) hedit
  | delete key => exact hchange key none hedit
  | setBlob relpath content => exact hblob relpath (some content) hedit
  | deleteBlob relpath => exact hblob relpath none hedit

/-- Landing keeps what stands, and the new index stands. -/
theorem landed_stands (hplaced : tx.Placed store after) (hpends : tx.Pends)
    (hclosed : store.files.Closed) (hstands : AllStand store store.index) :
    (landed tx after store.index).root = store.root
      ∧ KeepsDirs store.files (landed tx after store.index).files
      ∧ (landed tx after store.index).files.Closed
      ∧ AllStand (landed tx after store.index) (landed tx after store.index).index := by
  obtain ⟨⟨-, hdirs, hkeepsClosed, hmoved⟩, hall⟩ := hplaced.laid hpends
  rw [hall] at hmoved
  have hroot : after.root = store.root := by rw [hplaced.frame]
  have hafter := hkeepsClosed hclosed
  have hswept : KeepsDirs after.files (landed tx after store.index).files :=
    sweep_dirs hafter hpends.removals
  have hclosed' : (landed tx after store.index).files.Closed := sweep_closed hafter hpends.removals
  refine ⟨hroot, hdirs.trans hswept, hclosed', fun relpath hmem => ?_⟩
  rw [landed_index, contains_overlay] at hmem
  cases hpending : tx.blobs[relpath]? with
  | none =>
      rw [hpending] at hmem
      exact (hstands relpath hmem).mono hroot (hdirs.trans hswept)
  | some pending =>
      rw [hpending] at hmem
      cases pending with
      | none => cases hmem
      | some content =>
          have hstand := hmoved _ (mem_staged.2 hpending)
          exact hstand.mono rfl hswept

/-- What lies where once a transaction has landed. -/
theorem node?_landed (hplaced : tx.Placed store after) (hpends : tx.Pends)
    (hclosed : store.files.Closed) (q : Place) :
    (landed tx after store.index).files.node? q
      = tx.leaves store.filesRoot q (store.files.node? q) := by
  have hready : ({ after with index := tx.overlay store.index } : Store).files.Closed :=
    (hplaced.laid hpends).1.closed hclosed
  have hroot : after.filesRoot = store.filesRoot := by
    rw [hplaced.frame]
    rfl
  unfold landed leaves
  rw [node?_sweep hready hpends.removals]
  dsimp only
  rw [hplaced.node hpends]
  show swept (tx.removals.any (empties after.filesRoot q)) _ = _
  rw [hroot]

/-- A step at a shelved site leads to a shelved site. -/
theorem Move.shelved {a : Action} {answer : Except StoreError UInt64} (hs : s.Shelved)
    (h : Move s who a answer t) : t.Shelved := by
  cases h with
  | begin hfree hlock hserial =>
      apply hs.settle_same
      · intro u hu
        cases hu
        exact pends_fresh _ _ _
      · intro u view hu hview
        cases hu
        cases hview
        exact hs.current
  | @edit tx tx' e hopen hedit =>
      apply hs.settle_same
      · intro u hu
        cases hu
        exact pends_edit (hs.pends who tx hopen) hedit
      · intro u view hu hview
        cases hu
        rw [(edit_eq hedit).2] at hview
        exact hs.views who tx view hopen hview
  | editRefused hopen hedit => exact hs
  | close hopen ha => exact hs.settle_same nofun nofun
  | @commit tx after hopen hwrites hchanges hplaced =>
      obtain ⟨hroot, hdirs, hclosed, hstands⟩ :=
        landed_stands hplaced (hs.pends who tx hopen) hs.closed hs.current
      exact hs.settle hroot hdirs hclosed hstands nofun nofun
  | @commitRefused tx after e hopen hwrites hchanges hrefused =>
      obtain ⟨⟨-, hdirs, hclosed, -⟩, -⟩ := hrefused.laid (hs.pends who tx hopen)
      have hroot : after.root = s.store.root := by rw [hrefused.frame]
      refine hs.settle hroot hdirs (hclosed hs.closed) ?_ nofun nofun
      rw [refused_index hrefused]
      exact hs.current.mono hroot hdirs
  | renew hopen hlock hchanges hserial =>
      apply hs.settle_same
      · intro u hu
        cases hu
        exact pends_fresh _ _ _
      · intro u view hu hview
        cases hu
        cases hview
        exact hs.current
  | @recommit tx after hopen hwrites hchanges hplaced =>
      obtain ⟨hroot, hdirs, hclosed, hstands⟩ :=
        landed_stands hplaced (hs.pends who tx hopen) hs.closed hs.current
      apply hs.settle hroot hdirs hclosed hstands
      · intro u hu
        cases hu
        exact pends_fresh _ _ _
      · intro u view hu hview
        cases hu
        cases hview
        exact hstands
  | @recommitRefused tx after e hopen hwrites hchanges hrefused =>
      obtain ⟨⟨-, hdirs, hclosed, -⟩, -⟩ := hrefused.laid (hs.pends who tx hopen)
      have hroot : after.root = s.store.root := by rw [hrefused.frame]
      refine hs.settle hroot hdirs (hclosed hs.closed) ?_ ?_ ?_
      · rw [refused_index hrefused]
        exact hs.current.mono hroot hdirs
      · intro u hu
        cases hu
        exact hs.pends who tx hopen
      · intro u view hu hview
        cases hu
        exact (hs.views who tx view hopen hview).mono hroot hdirs

/-- So does any number of steps, from a site that is sane. -/
theorem Steps.shelved {events : List Event} (h : Steps s events t) (hsane : s.Sane)
    (hs : s.Shelved) : t.Shelved := by
  induction h with
  | refl => exact hs
  | snoc hsteps hact ih => exact ((hsteps.sane hsane).move hact).shelved ih

end Site

end Depot
