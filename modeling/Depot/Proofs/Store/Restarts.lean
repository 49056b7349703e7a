/-
Restarts that are refused. There are two ways. When the operating system
refuses the commit of a transaction that writes, the transaction is left
as it was, and trying to commit again comes to the same, whatever the
first try has moved already (`Refused.again`). When the serial cannot be
read or the index fails, as when another writer holds it for too long, the
transaction has ended before: it is left without its view and without its
changes, it reads what is committed at any time, and its commit is
refused. So a refused restart is harmless just if it was refused by the
operating system (`unharmed_iff`).

The index fails only where a transaction begins. That it fails while one is
under way, by a disk that is full or broken, is not considered.
-/
import Depot.Proofs.Files.Made
import Depot.Proofs.Store.Retrying

namespace Depot

/-- Trees that have the same at every place are the same, if they have at
the top. -/
theorem Files.Tree.eq_of_node? {t t' : Tree} (h : ∀ q, t'.node? q = t.node? q)
    (htop : t'.nodes[([] : Place)]? = t.nodes[([] : Place)]?) : t' = t := by
  refine eq_of_nodes fun q => ?_
  by_cases hq : q = []
  · rw [hq, htop]
  · rw [← node?_of_ne hq, ← node?_of_ne hq, h]

namespace Transaction

open Files Files.Tree

variable {tx left : Transaction} {store after ready : Store} {view : Index} {e : StoreError}
  {blobs : List (String × Bytes)}

-- ===================================================== staging again

/-- Directories that were made are not made again where directories stay. -/
theorem makeDirs_kept {t made t' : Tree} {pieces : List String} {dest : Place}
    (h : t.makeDirs pieces = (made, .ok dest)) (hdirs : KeepsDirs made t') :
    t'.makeDirs pieces = (t', .ok dest) := by
  cases pieces with
  | nil =>
      cases h
      rfl
  | cons piece rest =>
      obtain ⟨hdir, hwalk⟩ := walk_of_makeDirs (List.cons_ne_nil _ _) h
      exact makeDirs_of_walk (walk_mono hdirs hdir hwalk) (hdirs dest hdir)

/-- A blob that was staged is staged still where directories stay. -/
theorem Stages.kept {relpath : String} (h : Stages store relpath ready (.ok ()))
    (hroot : after.root = store.root) (hcwd : after.cwd = store.cwd)
    (hdirs : KeepsDirs ready.files after.files) (content : Bytes) :
    stage after (relpath, content) = (after, .ok ()) := by
  cases h with
  | made hdir hmake hscratch =>
      rw [← filesRoot_congr hroot] at hdir
      rw [← scratchPath_congr hroot hcwd] at hscratch
      unfold stage
      dsimp only
      rw [hdir, makeDirs_kept hmake hdirs]
      dsimp only
      rw [hscratch]

/-- Blobs that were staged are staged still where directories stay. -/
theorem stageAll_kept (hvalid : ∀ blob ∈ blobs, Relpath.isValid blob.1 = true)
    (h : stageAll store blobs = (ready, .ok ())) (hroot : after.root = store.root)
    (hcwd : after.cwd = store.cwd) (hdirs : KeepsDirs ready.files after.files) :
    stageAll after blobs = (after, .ok ()) := by
  unfold stageAll at h ⊢
  induction blobs generalizing store with
  | nil => rfl
  | cons blob rest ih =>
      have hrest := fun blob hmem => hvalid blob (List.mem_cons_of_mem _ hmem)
      obtain ⟨between, hone, hmore⟩ := inTurn_ok h
      have hstages := stages_of_eq hone
      have hgrown := stageAll_grown hrest between
      unfold stageAll at hgrown
      rw [hmore] at hgrown
      have hkept := hstages.kept hroot hcwd (KeepsDirs.trans (fun q => hgrown.dir) hdirs) blob.2
      rw [inTurn, hkept]
      exact ih hrest hmore (by rw [hroot, hstages.frame]) (by rw [hcwd, hstages.frame])

/-- A blob that is refused is refused again, and nothing more is made. -/
theorem Stages.again {relpath : String} (h : Stages store relpath after (.error e))
    (content : Bytes) : stage after (relpath, content) = (after, .error e) := by
  have hroot : after.filesRoot = store.filesRoot := filesRoot_congr (by rw [h.frame])
  have hpath : after.scratchPath relpath = store.scratchPath relpath :=
    scratchPath_congr (by rw [h.frame]) (by rw [h.frame]) relpath
  unfold stage
  dsimp only
  rw [hroot, hpath]
  cases h with
  | refused hdir => rw [hdir]
  | unmade hdir hmake =>
      rw [hdir]
      dsimp only
      rw [makeDirs_again hmake]
  | cramped hdir hmake hscratch =>
      rw [hdir]
      dsimp only
      rw [makeDirs_again hmake]
      dsimp only
      rw [hscratch]

/-- Staging that is refused is refused again, and makes nothing more. -/
theorem stageAll_again (hvalid : ∀ blob ∈ blobs, Relpath.isValid blob.1 = true)
    (h : stageAll store blobs = (after, .error e)) : stageAll after blobs = (after, .error e) := by
  obtain ⟨front, blob, rest, between, rfl, hfront, hlast⟩ := inTurn_error h
  have hstages := stages_of_eq hlast
  have hkept : stageAll after front = (after, .ok ()) := by
    have hready : stageAll store front = (between, .ok ()) := hfront
    refine stageAll_kept (fun b hmem => hvalid b (List.mem_append_left _ hmem)) hready ?_ ?_
      fun q => (hstages.grown (hvalid blob (by simp))).dir
    · rw [hstages.frame, stageAll_eq hready]
    · rw [hstages.frame, stageAll_eq hready]
  unfold stageAll at hkept ⊢
  rw [inTurn_append, hkept]
  dsimp only
  rw [inTurn, hstages.again blob.2]

-- ===================================================== moving again

/-- Where moving stops. -/
theorem moveAll_error (h : moveAll store blobs = (after, .error e)) :
    ∃ front blob rest, blobs = front ++ blob :: rest ∧ moveAll store front = (after, .ok ())
      ∧ move after blob = (after, .error e) := by
  obtain ⟨front, blob, rest, between, hsplit, hfront, hlast⟩ := inTurn_error h
  obtain ⟨rfl, -⟩ := move_eq_error hlast
  exact ⟨front, blob, rest, hsplit, hfront, hlast⟩

/-- What is moved does not lie at the top. -/
theorem moveAll_top (hvalid : ∀ blob ∈ blobs, Relpath.isValid blob.1 = true) (store : Store) :
    (moveAll store blobs).1.files.nodes[([] : Place)]? = store.files.nodes[([] : Place)]? := by
  refine inTurn_rel (R := fun a b => b.files.nodes[([] : Place)]? = a.files.nodes[([] : Place)]?)
    (fun _ => rfl) (fun hab hbc => hbc.trans hab) (fun blob hmem store => ?_) store
  rcases move_cases store blob with ⟨files, hreach, hmove⟩ | ⟨cause, -, hmove⟩
  · obtain ⟨hfile, -, -, -, rfl⟩ :=
      moveInto_ok (Relpath.up_not_mem (hvalid blob hmem)) (reach_eq_ok_iff.1 hreach).2
    rw [hmove]
    unfold put
    rw [Std.ExtTreeMap.getElem?_insert, if_neg (by simpa using names_ne_nil hfile)]
  · rw [hmove]

/-- Blobs that were moved are moved again, to the same effect. -/
theorem moveAll_again (hvalid : ∀ blob ∈ blobs, Relpath.isValid blob.1 = true)
    (hclosed : ready.files.Closed)
    (hdirs : ∀ blob ∈ blobs, ready.files.node? (Store.place blob.1).dropLast = some .dir)
    (h : moveAll ready blobs = (after, .ok ())) : moveAll after blobs = (after, .ok ()) := by
  obtain ⟨hmoved, -, hall⟩ := moveAll_spec hvalid ready
  have htop := moveAll_top hvalid ready
  rw [h] at hmoved hall htop
  rw [hall.1 rfl] at hmoved
  have hok := moveAll_isOk_iff hvalid hclosed hdirs
  rw [h] at hok
  have hagain := (moveAll_isOk_iff hvalid (hmoved.closed hclosed)
    fun blob hmem => hmoved.dirs _ (hdirs blob hmem)).2 fun blob hmem => by
      obtain ⟨-, hfile, hshort, -⟩ := hok.1 rfl blob hmem
      refine ⟨(hmoved.stands blob hmem).taken, hfile, hshort, fun hdir => ?_⟩
      -- a file lies there now
      rcases foldl_shelve blobs (Store.place blob.1) with ⟨content, hput⟩ | ⟨hne, -⟩
      · rw [hmoved.node, hput] at hdir
        cases hdir
      · exact hne blob hmem rfl
  obtain ⟨hmoved', -, hall'⟩ := moveAll_spec hvalid after
  have htop' := moveAll_top hvalid after
  cases hmove : moveAll after blobs with
  | mk again answer =>
      rw [hmove] at hagain hmoved' hall' htop'
      cases answer with
      | error e => cases hagain
      | ok _ =>
          rw [hall'.1 rfl] at hmoved'
          have hfiles : again.files = after.files := by
            refine eq_of_node? (fun q => ?_) htop'
            rw [hmoved'.node, hmoved.node]
            rcases foldl_shelve blobs q with ⟨content, hput⟩ | ⟨-, hkept⟩
            · rw [hput, hput]
            · rw [hkept, hkept]
          rw [moveAll_eq hmove, hfiles]

-- ===================================================== commits again

/-- A commit that is refused is refused again, and leaves what it left. -/
theorem Refused.again (h : tx.Refused store after e) (hpends : tx.Pends)
    (hclosed : store.files.Closed) : tx.Refused after after e := by
  rcases h with hstage | ⟨ready, hstage, hmove⟩
  · exact .inl (stageAll_again hpends.staged hstage)
  · obtain ⟨front, blob, rest, hsplit, hfront, hlast⟩ := moveAll_error hmove
    have hvalid : ∀ blob ∈ front, Relpath.isValid blob.1 = true := fun blob hmem =>
      hpends.staged blob (by rw [hsplit]; exact List.mem_append_left _ hmem)
    have hgrown := stageAll_grown hpends.staged store
    rw [hstage] at hgrown
    have hdirs : ∀ blob ∈ front, ready.files.node? (Store.place blob.1).dropLast = some .dir := by
      intro blob hmem
      have hstaged : blob ∈ tx.staged := hsplit ▸ List.mem_append_left _ hmem
      rw [node?_stageAll hpends.staged hstage,
        if_pos (isAbove_of_mem hstaged (List.prefix_refl _))]
    obtain ⟨hmoved, -, -⟩ := moveAll_spec hvalid ready
    rw [hfront] at hmoved
    have hroot : after.root = store.root := by rw [moveAll_eq hfront, stageAll_eq hstage]
    have hcwd : after.cwd = store.cwd := by rw [moveAll_eq hfront, stageAll_eq hstage]
    have hagain := moveAll_again hvalid (hgrown.closed hclosed) hdirs hfront
    refine .inr ⟨after, stageAll_kept hpends.staged hstage hroot hcwd hmoved.dirs, ?_⟩
    unfold moveAll at hagain ⊢
    rw [hsplit, inTurn_append, hagain]
    dsimp only
    rw [inTurn, hlast]

/-- So the same commit is refused in the same way, and leaves the same. -/
theorem Refused.commit_again (h : tx.Refused store after e) (hpends : tx.Pends)
    (hclosed : store.files.Closed) (hchanges : tx.hasChanges = true) (hview : tx.view = some view) :
    tx.commit after = tx.commit store := by
  rw [(h.again hpends hclosed).commit hchanges hview, h.commit hchanges hview]

/-- What refuses a commit is the operating system. -/
theorem Refused.io (h : tx.Refused store after e) : ∃ path cause, e = .io path cause := by
  rcases h with hstage | ⟨ready, -, hmove⟩
  · obtain ⟨-, blob, -, between, -, -, hlast⟩ := inTurn_error hstage
    cases stages_of_eq hlast <;> exact ⟨_, _, rfl⟩
  · obtain ⟨-, blob, -, -, -, hlast⟩ := moveAll_error hmove
    obtain ⟨-, cause, rfl⟩ := move_eq_error hlast
    exact ⟨_, cause, rfl⟩

-- ===================================================== restarts

/-- Goes on as a transaction that writes, or as one that reads. -/
def restart (tx : Transaction) (store : Store) (writable : Bool)
    (fault : Option IndexFault := none) : Store × Transaction × Except StoreError UInt64 :=
  if writable then tx.restartAsWrite store fault else (store, tx.restartAsRead store fault)

/-- A transaction after a restart that was refused is to its holder as it
was before: it reads the same, whatever is committed meanwhile, and giving
up or committing comes to what it would have. -/
structure Unharmed (tx left : Transaction) (store after : Store) : Prop where
  get : ∀ now : Store, left.get now = tx.get now
  hasRecord : ∀ now : Store, left.hasRecord now = tx.hasRecord now
  keys : ∀ now : Store, left.keys now = tx.keys now
  serial : left.serial = tx.serial
  writable : left.writable = tx.writable
  rollback : left.rollback = tx.rollback ∧ after.index = store.index
  commit : left.commit after = tx.commit store

/-- After a commit of changes the serial can be read, if it could be when
the transaction began. -/
theorem serial_after_commit {text : String} (hserial : (tx.overlay view).serial = some text) :
    (Text.natural? text.toList).isSome = true := by
  unfold Transaction.overlay at hserial
  obtain ⟨-, -, rfl⟩ := Option.map_eq_some_iff.1 hserial
  rw [natural?_serial]
  rfl

/-- How a restart is refused: its commit is, or the transaction has ended when
it cannot begin anew. -/
inductive RestartRefused (tx : Transaction) (store : Store) (writable : Bool)
    (fault : Option IndexFault) : Store → Transaction → StoreError → Prop
  | commit {after : Store} {e : StoreError} (hchanges : tx.hasChanges = true)
      (hrefused : tx.Refused store after e) : RestartRefused tx store writable fault after tx e
  | serial {serial : UInt64} {text : String} :
      RestartRefused tx store writable fault store (tx.ended serial) (.corruptSerial text)
  | index {serial : UInt64} {cause : IndexFault} (hfault : fault = some cause) :
      RestartRefused tx store writable fault
        (if writable && tx.writable then (tx.commit store).1 else store) (tx.ended serial)
        (.index cause)

theorem restart_error {writable : Bool} {fault : Option IndexFault} (hview : tx.view = some view)
    (h : tx.restart store writable fault = (after, left, .error e)) :
    RestartRefused tx store writable fault after left e := by
  -- starting over where nothing was committed
  have hover : ∀ {writable' serial},
      (if writable && tx.writable then (tx.commit store).1 else store) = store →
      (store, (tx.ended serial).startOver store writable' fault) = (after, left, .error e) →
      RestartRefused tx store writable fault after left e := by
    intro writable' serial hsame heq
    obtain ⟨rfl, hrest⟩ := Prod.mk.inj heq
    obtain ⟨rfl, ⟨cause, hfault, rfl⟩ | ⟨-, text, -, -, rfl⟩⟩ := startOver_error hrest
    · have hindex : RestartRefused tx store writable fault _ (tx.ended serial) (.index cause) :=
        .index hfault
      rwa [hsame] at hindex
    · exact .serial
  unfold restart at h
  cases writable with
  | false => exact hover rfl h
  | true =>
      rw [if_pos rfl] at h
      unfold restartAsWrite at h
      cases hwrites : tx.writable with
      | false =>
          rw [hwrites, if_neg Bool.false_ne_true] at h
          exact hover (by rw [hwrites]; rfl) h
      | true =>
          rw [hwrites, if_pos rfl] at h
          rcases commit_cases hview store with
            ⟨-, hcommit⟩ | ⟨hchanges, after', e', hrefused, hcommit⟩ | ⟨-, after', -, hcommit⟩
          · rw [hcommit] at h
            exact hover (by rw [hwrites, hcommit]; rfl) h
          · rw [hcommit] at h
            cases h
            exact .commit hchanges hrefused
          · have hsame : (if true && tx.writable then (tx.commit store).1 else store)
                = sweep { after' with index := tx.overlay view } tx.removals := by
              rw [hwrites, hcommit]
              rfl
            rw [hcommit] at h
            obtain ⟨rfl, hrest⟩ := Prod.mk.inj h
            obtain ⟨rfl, ⟨cause, hfault, rfl⟩ | ⟨-, text, hserial, hnumber, -⟩⟩ :=
              startOver_error hrest
            · rw [← hsame]
              exact .index hfault
            · have hread := serial_after_commit hserial
              rw [hnumber] at hread
              cases hread

/-- A transaction that has ended without changes is refused its commit. -/
theorem commit_of_ended (tx : Transaction) (serial : UInt64) (store : Store) :
    (tx.ended serial).commit store = (store, tx.ended serial, .error (.index .ended)) := rfl

/-- It is harmed, if it has not ended before: it would have committed, or
would have been refused by the operating system. -/
theorem not_unharmed_of_ended {serial : UInt64} (hview : tx.view = some view) :
    ¬Unharmed tx (tx.ended serial) store after := by
  intro hunharmed
  have hcommit := hunharmed.commit
  rw [commit_of_ended] at hcommit
  rcases commit_cases hview store with
    ⟨-, heq⟩ | ⟨-, after', e', hrefused, heq⟩ | ⟨-, after', -, heq⟩
  · rw [heq] at hcommit
    cases (Prod.mk.inj (Prod.mk.inj hcommit).2).2
  · rw [heq] at hcommit
    obtain ⟨path, cause, rfl⟩ := hrefused.io
    cases (Prod.mk.inj (Prod.mk.inj hcommit).2).2
  · rw [heq] at hcommit
    cases (Prod.mk.inj (Prod.mk.inj hcommit).2).2

/-- A restart that is refused leaves a transaction unharmed just if it is
the operating system that refuses. Else the serial cannot be read and the
store stays as it is, or the index fails, and the store is as it was or as
the commit of the transaction has left it. In both cases the transaction
has ended: it has no changes, it reads what is committed when it is asked,
and its commit is refused. -/
theorem unharmed_iff (hunderway : Underway tx) (hclosed : store.files.Closed) {writable : Bool}
    {fault : Option IndexFault}
    (h : tx.restart store writable fault = (after, left, .error e)) :
    (Unharmed tx left store after ↔ ∃ path cause, e = .io path cause)
      ∧ ((¬∃ path cause, e = .io path cause) →
          ((∃ text, e = .corruptSerial text) ∧ after = store
              ∨ (∃ cause, fault = some cause ∧ e = .index cause)
                ∧ after = if writable && tx.writable then (tx.commit store).1 else store)
            ∧ left.hasChanges = false ∧ (∀ now : Store, left.observed now = now.index)
            ∧ ∀ now : Store, left.commit now = (now, left, .error (.index .ended))) := by
  obtain ⟨view, hview⟩ := hunderway.live
  cases restart_error hview h with
  | commit hchanges hrefused =>
      have hio := hrefused.io
      refine ⟨iff_of_true ⟨fun _ => rfl, fun _ => rfl, fun _ => rfl, rfl, rfl,
        ⟨rfl, by rw [hrefused.frame]⟩, ?_⟩ hio, fun hnot => absurd hio hnot⟩
      exact hrefused.commit_again hunderway.pends hclosed hchanges hview
  | serial =>
      refine ⟨iff_of_false (not_unharmed_of_ended hview) ?_, fun _ =>
        ⟨.inl ⟨⟨_, rfl⟩, rfl⟩, rfl, fun _ => rfl, commit_of_ended tx _⟩⟩
      intro hio
      obtain ⟨path, cause, heq⟩ := hio
      cases heq
  | index hfault =>
      refine ⟨iff_of_false (not_unharmed_of_ended hview) ?_, fun _ =>
        ⟨.inr ⟨⟨_, hfault, rfl⟩, rfl⟩, rfl, fun _ => rfl, commit_of_ended tx _⟩⟩
      intro hio
      obtain ⟨path, cause, heq⟩ := hio
      cases heq

/-- One record. -/
def oneRecord : Store where
  root := "depot"
  index := { records := Std.ExtTreeMap.insert ∅ "k" "1" }

/-- What is left of it once its serial is no number. -/
def badSerial : Store := { oneRecord with index := { oneRecord.index with serial := some "bad" } }

set_option maxRecDepth 20000 in
/-- A transaction that reads loses its view when it is refused to start
over, and so finds a record that it did not find before. -/
theorem unharmed_iff_not_for_serial : ∃ tx left,
    start { root := "depot" } false = .ok tx ∧ Underway tx
    ∧ badSerial.files.Closed
    ∧ tx.restart badSerial false = (badSerial, left, .error (.corruptSerial "bad"))
    ∧ ¬Unharmed tx left badSerial badSerial
    ∧ tx.hasRecord badSerial "k" = .ok false ∧ left.hasRecord badSerial "k" = .ok true
    ∧ (tx.commit badSerial).2.2 = .ok 0
    ∧ (left.commit badSerial).2.2 = .error (.index .ended) := by
  have hstart : start { root := "depot" } false = .ok _ := rfl
  have hunderway := Underway.start hstart
  obtain ⟨hiff, -⟩ := unharmed_iff hunderway closed_empty
    (show restart _ badSerial false = (badSerial, _, .error (.corruptSerial "bad")) from rfl)
  refine ⟨_, _, hstart, hunderway, closed_empty, rfl, fun hunharmed => ?_, rfl, rfl, rfl, rfl⟩
  obtain ⟨path, cause, heq⟩ := hiff.1 hunharmed
  cases heq

end Transaction

end Depot
