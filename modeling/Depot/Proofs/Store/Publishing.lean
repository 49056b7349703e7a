/-
What a commit publishes. A blob is asked for by its relpath, and the
pending ones are kept under their relpaths, but a file is found by the
place that a relpath names, and many relpaths name one place. So a
transaction that is begun after a commit does not always see the blobs as
the one that committed saw them: `published_iff` says that a relpath
looks the same just if it is not committed, or what the commit leaves at
its place is what the transaction held there. Where no other changed
relpath names that place or one below it, that is so.
-/
import Depot.Proofs.Store.BlobSnapshot
import Depot.Proofs.Store.Puts

namespace Depot

open Files Files.Tree

namespace Transaction

variable {tx : Transaction} {store : Store} {view : Index} {relpath : String} {q : Place}

/-- What a transaction holds for the place of a relpath: the pending blob,
or else what lies there. -/
def holds (tx : Transaction) (store : Store) (relpath : String) : Option Node :=
  match tx.blobs[relpath]? with
  | some content => content.map .file
  | none => store.files.node? (Store.place relpath)

theorem holds_of_unchanged (h : tx.blobs[relpath]? = none) :
    tx.holds store relpath = store.files.node? (Store.place relpath) := by
  unfold holds
  rw [h]

theorem holds_of_pending {content : Option Bytes} (h : tx.blobs[relpath]? = some content) :
    tx.holds store relpath = content.map .file := by
  unfold holds
  rw [h]

/-- What a transaction sees is what it holds, at the relpaths that its
commit would enter in the index. -/
theorem seen_holds (hview : tx.view = some view) (hpends : tx.Pends)
    (hclosed : store.files.Closed)
    (hstands : view.blobs.contains relpath = true → Stands store relpath) :
    tx.seen store relpath =
      if (tx.overlay view).blobs.contains relpath then
        .ofNode (Path.join store.filesRoot relpath) (tx.holds store relpath)
      else .absent relpath := by
  rw [contains_overlay]
  cases hpending : tx.blobs[relpath]? with
  | none =>
      rw [holds_of_unchanged hpending]
      exact seen_eq hview hpending hclosed hstands
  | some content =>
      rw [holds_of_pending hpending]
      unfold seen hasBlob getBlob blobSize Seen.absent
      rw [hpending, hpends relpath content hpending]
      cases content <;> rfl

-- ===================================================== one relpath at a place

/-- Blobs that have one content at a place leave it there. -/
theorem foldl_shelve_eq {blobs : List (String × Bytes)} {content : Bytes}
    (hall : ∀ blob ∈ blobs, Store.place blob.1 = q → blob.2 = content)
    (hsome : ∃ blob ∈ blobs, Store.place blob.1 = q) (node : Option Node) :
    blobs.foldl (shelve q) node = some (.file content) := by
  induction blobs using List.reverseRecOn with
  | nil =>
      obtain ⟨blob, hmem, -⟩ := hsome
      cases hmem
  | append_singleton blobs last ih =>
      rw [List.foldl_append, List.foldl_cons, List.foldl_nil]
      unfold shelve
      by_cases hlast : Store.place last.1 = q
      · rw [if_pos hlast, hall last (by simp) hlast]
      · rw [if_neg hlast]
        refine ih (fun blob hmem => hall blob (by simp [hmem])) ?_
        obtain ⟨blob, hmem, hplace⟩ := hsome
        rcases List.mem_append.1 hmem with hmem | hmem
        · exact ⟨blob, hmem, hplace⟩
        · obtain rfl := List.mem_singleton.1 hmem
          exact absurd hplace hlast

/-- Blobs at other places leave it alone. -/
theorem foldl_shelve_of_ne {blobs : List (String × Bytes)}
    (h : ∀ blob ∈ blobs, Store.place blob.1 ≠ q) (node : Option Node) :
    blobs.foldl (shelve q) node = node :=
  List.foldlRecOn (motive := (· = node)) blobs _ rfl fun _ hkept blob hmem =>
    (if_neg (h blob hmem)).trans hkept

/-- What is not swept stays. -/
theorem swept_false (node : Option Node) : swept false node = node := by
  cases node with
  | none => rfl
  | some node => cases node <;> rfl

/-- No other changed relpath names the place of a relpath, or one below
it. -/
def Alone (tx : Transaction) (relpath : String) : Prop :=
  ∀ other, other ≠ relpath → tx.blobs[other]? ≠ none →
    ¬Store.place relpath <+: Store.place other

namespace Alone

theorem eq (h : tx.Alone relpath) {other : String} {content : Option Bytes}
    (hother : tx.blobs[other]? = some content)
    (hunder : Store.place relpath <+: Store.place other) : other = relpath :=
  Classical.byContradiction fun hne => h other hne (by simp [hother]) hunder

/-- No directory is made in its place. -/
theorem isAbove (h : tx.Alone relpath) (hfile : isFilePath (Store.pieces relpath) = true) :
    isAbove tx.staged (Store.place relpath) = false := by
  unfold Transaction.isAbove
  rw [List.any_eq_false]
  intro blob hmem hunder
  have hunder := of_decide_eq_true hunder
  rw [h.eq (mem_staged.1 hmem) (hunder.trans (List.dropLast_prefix _))] at hunder
  -- a place is not above itself
  have hlen := hunder.length_le
  have hpos : 0 < (Store.place relpath).length := List.length_pos_iff.2 (names_ne_nil hfile)
  rw [List.length_dropLast] at hlen
  omega

/-- It is not emptied, unless its own blob is deleted. -/
theorem empties (h : tx.Alone relpath) (hkept : tx.blobs[relpath]? ≠ some none)
    (filesRoot : String) :
    tx.removals.any (empties filesRoot (Store.place relpath)) = false := by
  rw [List.any_eq_false]
  intro other hmem hempties
  have hpending := mem_removals.1 hmem
  unfold Transaction.empties at hempties
  simp only [Bool.and_eq_true, decide_eq_true_eq] at hempties
  obtain rfl := h.eq hpending (hempties.2 ▸ List.prefix_refl _)
  exact hkept hpending

/-- So a commit that enters it in the index leaves at its place what the
transaction held there. -/
theorem leaves (h : tx.Alone relpath) (hfile : isFilePath (Store.pieces relpath) = true)
    (hkept : tx.blobs[relpath]? ≠ some none) (filesRoot : String) :
    tx.leaves filesRoot (Store.place relpath) (store.files.node? (Store.place relpath))
      = tx.holds store relpath := by
  unfold Transaction.leaves
  rw [h.isAbove hfile, h.empties hkept, swept_false, if_neg Bool.false_ne_true]
  have hself : ∀ blob ∈ tx.staged, Store.place blob.1 = Store.place relpath →
      tx.blobs[relpath]? = some (some blob.2) := by
    intro blob hmem hplace
    have hblob := mem_staged.1 hmem
    rwa [h.eq hblob (hplace ▸ List.prefix_refl _)] at hblob
  cases hpending : tx.blobs[relpath]? with
  | none =>
      rw [holds_of_unchanged hpending]
      refine foldl_shelve_of_ne (fun blob hmem hplace => ?_) _
      simp [hself blob hmem hplace] at hpending
  | some pending =>
      rw [holds_of_pending hpending]
      cases pending with
      | none => exact absurd hpending hkept
      | some content =>
          refine foldl_shelve_eq (fun blob hmem hplace => ?_) ⟨_, mem_staged.2 hpending, rfl⟩ _
          simpa [hpending] using (hself blob hmem hplace).symm

end Alone

end Transaction

namespace Site

open Transaction

variable {s t : Site} {who : Nat} {tx : Transaction}

-- ===================================================== after the commit

/-- What is committed after a commit is what the transaction saw as such. -/
theorem Move.contains {a : Action} {n : UInt64} (h : Move s who a (.ok n) t)
    (hopen : s.opened who = some tx) (ha : a = .commit ∨ a = .restart true) (relpath : String) :
    t.store.index.blobs.contains relpath
      = (tx.overlay s.store.index).blobs.contains relpath := by
  have hclean : tx.hasChanges = false →
      s.store.index.blobs.contains relpath = (tx.overlay s.store.index).blobs.contains relpath := by
    intro hchanges
    rw [contains_overlay, blobs_eq_empty hchanges, Std.ExtTreeMap.getElem?_empty]
  cases h with
  | begin | edit => rcases ha with ha | ha <;> cases ha
  | close hopen' hclose =>
      obtain rfl := Option.some.inj (hopen.symm.trans hopen')
      rcases ha with rfl | rfl
      · rcases hclose with hclose | hclose | ⟨-, hchanges⟩
        · cases hclose
        · cases hclose
        · exact hclean hchanges
      · rcases hclose with hclose | hclose | ⟨hclose, -⟩ <;> cases hclose
  | renew hopen' _ hchanges _ =>
      obtain rfl := Option.some.inj (hopen.symm.trans hopen')
      rcases ha with ha | ha
      · cases ha
      · cases ha
        exact hclean (hchanges rfl)
  | commit hopen' | recommit hopen' =>
      obtain rfl := Option.some.inj (hopen.symm.trans hopen')
      rfl

/-- A transaction begun after a commit sees a relpath as the transaction
that committed saw it just if it is not committed, or what the commit
leaves at its place is what the transaction held there; and so it does
where no other changed relpath names that place or one below it. -/
theorem published_iff {root cwd : String} {events : List Event} {a : Action} {n : UInt64}
    (h : Steps (empty root cwd) events s) (hopen : s.opened who = some tx)
    (hwrites : tx.writable = true) (ha : a = .commit ∨ a = .restart true)
    (hact : s.act who a = some (t, .ok n)) :
    ∀ writable, ∃ later, start t.store writable = .ok later
      ∧ ∀ relpath,
        (later.seen t.store relpath = tx.seen s.store relpath
          ↔ (t.store.index.blobs.contains relpath = true →
              tx.leaves s.store.filesRoot (Store.place relpath)
                  (s.store.files.node? (Store.place relpath))
                = tx.holds s.store relpath))
        ∧ (tx.Alone relpath → later.seen t.store relpath = tx.seen s.store relpath) := by
  have hsane := h.sane (sane_empty root cwd)
  have hshelved := h.shelved (sane_empty root cwd) (shelved_empty root cwd)
  have hmove := hsane.move hact
  have hshelved' := hmove.shelved hshelved
  have hpends := hshelved.pends who tx hopen
  have hview := ((hsane.fit who tx hopen).current hwrites).1
  obtain ⟨m, hserial⟩ := (hmove.sane hsane).serial
  intro writable
  refine ⟨fresh t.store m writable, start_eq hserial writable, fun relpath => ?_⟩
  have hcontains := hmove.contains hopen ha relpath
  obtain ⟨hroot, hnode⟩ := hmove.node hshelved (.inl rfl) (Store.place relpath)
  have hlands : s.lands who a = [tx] := by
    unfold lands
    rcases ha with rfl | rfl <;> rw [hopen] <;> rfl
  rw [hlands, List.foldl_cons, List.foldl_nil] at hnode
  have hbefore := seen_holds hview hpends hshelved.closed (hshelved.current relpath)
  have hafter : (fresh t.store m writable).seen t.store relpath = _ :=
    seen_eq rfl (by simp [fresh]) hshelved'.closed (hshelved'.current relpath)
  have hiff : (fresh t.store m writable).seen t.store relpath = tx.seen s.store relpath
      ↔ (t.store.index.blobs.contains relpath = true →
          tx.leaves s.store.filesRoot (Store.place relpath)
              (s.store.files.node? (Store.place relpath))
            = tx.holds s.store relpath) := by
    rw [hbefore, hafter, ← hcontains, filesRoot_congr hroot, hnode]
    cases t.store.index.blobs.contains relpath with
    | false => simp
    | true =>
        simp only [↓reduceIte, forall_const]
        exact ⟨Seen.ofNode_inj, fun heq => by rw [heq]⟩
  refine ⟨hiff, fun halone => hiff.2 fun hcommitted => ?_⟩
  refine halone.leaves (hshelved'.current relpath hcommitted).file (fun hdeleted => ?_) _
  rw [hcontains, contains_overlay, hdeleted] at hcommitted
  cases hcommitted

set_option maxRecDepth 20000 in
/-- Of two relpaths that name one place, both are read with the content
that is moved there last. -/
theorem published_over_alias : ∃ events s t tx later,
    (empty "depot" "/").run
      [(0, .begin true), (0, .edit (.setBlob "a/b" [1])), (0, .edit (.setBlob "a//b" [2]))]
        = some (events, s)
    ∧ s.opened 0 = some tx ∧ s.act 0 .commit = some (t, .ok 1)
    ∧ start t.store false = .ok later
    ∧ tx.getBlob s.store "a//b" = .ok (some [2])
    ∧ later.getBlob t.store "a//b" = .ok (some [1])
    ∧ later.seen t.store "a//b" ≠ tx.seen s.store "a//b" := by
  have hrun : (empty "depot" "/").run
      [(0, .begin true), (0, .edit (.setBlob "a/b" [1])), (0, .edit (.setBlob "a//b" [2]))]
        = some (_, _) := rfl
  obtain ⟨later, hstart, hlater⟩ :=
    @published_iff _ _ 0 _ _ _ _ _ 1 (steps_of_run hrun) rfl rfl (.inl rfl) rfl false
  cases hstart
  refine ⟨_, _, _, _, _, hrun, rfl, rfl, rfl, rfl, rfl, fun hseen => ?_⟩
  have hplace := (hlater "a//b").1.1 hseen rfl
  cases hplace

end Site

end Depot
