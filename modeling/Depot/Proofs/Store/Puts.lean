/-
What commits put where. The files that a commit leaves, refused or not,
are those that it puts (`puts`) and some that were there before
(`Placed.left`, `Refused.left`); and what a transaction sees of a relpath
that it has not changed is the file at its place (`getBlob_eq_iff`).
-/
import Depot.Proofs.Store.Shelf

namespace Depot

open Files

namespace Transaction

variable {tx : Transaction} {store : Store} {view : Index} {relpath : String}

/-- The blobs say what is at a place, or have nothing to do with it. -/
theorem foldl_shelve (blobs : List (String × Bytes)) (q : Place) :
    (∃ content, ∀ node, blobs.foldl (shelve q) node = some (.file content))
      ∨ ((∀ blob ∈ blobs, Store.place blob.1 ≠ q)
        ∧ ∀ node, blobs.foldl (shelve q) node = node) := by
  induction blobs with
  | nil => exact .inr ⟨nofun, fun _ => rfl⟩
  | cons blob rest ih =>
      rcases ih with ⟨content, h⟩ | ⟨hne, h⟩
      · exact .inl ⟨content, fun node => h _⟩
      · by_cases heq : Store.place blob.1 = q
        · refine .inl ⟨blob.2, fun node => ?_⟩
          rw [List.foldl_cons, h]
          exact if_pos heq
        · refine .inr ⟨List.forall_mem_cons.2 ⟨heq, hne⟩, fun node => ?_⟩
          rw [List.foldl_cons, h]
          exact if_neg heq

/-- What a commit puts at a place and leaves there. Only a commit that
moves all its blobs comes to removing files. -/
def puts (tx : Transaction) (store : Store) (q : Place) : Option Node :=
  swept (decide (tx.laid store = tx.staged) && tx.removals.any (empties store.filesRoot q))
    ((tx.laid store).foldl (shelve q) none)

/-- A transaction without changes puts nothing anywhere. -/
theorem puts_of_clean (h : tx.hasChanges = false) (q : Place) : tx.puts store q = none := by
  have hlaid : tx.laid store = [] := by
    unfold laid
    rw [staged_eq_nil h]
    rfl
  unfold puts
  rw [hlaid]
  rfl

/-- A file that is not swept. -/
theorem swept_eq_file {emptied : Bool} {node : Option Node} {content : Bytes}
    (h : swept emptied node = some (.file content)) : node = some (.file content) := by
  cases node with
  | none => cases h
  | some node => cases node with
    | dir => cases h
    | file c => cases emptied with
      | true => cases h
      | false => exact h

/-- The files that a commit leaves: those that it puts, and of the others
some that were there. -/
structure Left (tx : Transaction) (store after : Store) : Prop where
  put : ∀ q content, tx.puts store q = some (.file content) →
    after.files.node? q = some (.file content)
  kept : ∀ q content, after.files.node? q = some (.file content) →
    tx.puts store q = some (.file content)
      ∨ ((∀ blob ∈ tx.laid store, Store.place blob.1 ≠ q)
        ∧ store.files.node? q = some (.file content))

/-- How files are left that come from those before by making directories,
moving blobs and sweeping. -/
theorem left_of_swept {after : Store} (makes : Place → Bool)
    (h : ∀ q, after.files.node? q = swept
      (decide (tx.laid store = tx.staged) && tx.removals.any (empties store.filesRoot q))
      ((tx.laid store).foldl (shelve q) (if makes q then some .dir else store.files.node? q))) :
    tx.Left store after where
  put q content hput := by
    unfold puts at hput
    rw [h]
    rcases foldl_shelve (tx.laid store) q with ⟨c, hc⟩ | ⟨-, hnode⟩
    · rw [hc] at hput ⊢
      exact hput
    · rw [hnode] at hput
      cases hput
  kept q content hleft := by
    unfold puts
    rw [h] at hleft
    rcases foldl_shelve (tx.laid store) q with ⟨c, hc⟩ | ⟨hne, hnode⟩
    · rw [hc] at hleft ⊢
      exact .inl hleft
    · rw [hnode] at hleft
      have hfile := swept_eq_file hleft
      split at hfile
      · cases hfile
      · exact .inr ⟨hne, hfile⟩

theorem Refused.left {after : Store} {e : StoreError} (h : tx.Refused store after e)
    (hpends : tx.Pends) : tx.Left store after := by
  obtain ⟨hlaid, -, hne⟩ := h.laid hpends
  refine left_of_swept (tx.makes store) fun q => ?_
  rw [hlaid.node, decide_eq_false hne]
  unfold laidAt
  generalize List.foldl _ _ _ = node
  cases node with
  | none => rfl
  | some node => cases node <;> rfl

theorem Placed.left {after : Store} (h : tx.Placed store after) (hpends : tx.Pends)
    (hclosed : store.files.Closed) : tx.Left store (Site.landed tx after store.index) := by
  obtain ⟨-, hall⟩ := h.laid hpends
  refine left_of_swept (isAbove tx.staged) fun q => ?_
  rw [Site.node?_landed h hpends hclosed, decide_eq_true hall, hall]
  rfl

-- ===================================================== content that is seen

/-- The content of a relpath that a transaction has not changed. -/
theorem getBlob_eq_iff (hview : tx.view = some view) (hpending : tx.blobs[relpath]? = none)
    (hclosed : store.files.Closed)
    (hstands : view.blobs.contains relpath = true → Stands store relpath) (content : Bytes) :
    tx.getBlob store relpath = .ok (some content)
      ↔ view.blobs.contains relpath = true
        ∧ store.files.node? (Store.place relpath) = some (.file content) := by
  have hcontent := congrArg Seen.content (seen_eq hview hpending hclosed hstands)
  rw [show tx.getBlob store relpath = (tx.seen store relpath).content from rfl, hcontent]
  cases view.blobs.contains relpath with
  | false =>
      simp only [Bool.false_eq_true, ↓reduceIte, false_and, iff_false]
      unfold Seen.absent
      split <;> nofun
  | true =>
      simp only [↓reduceIte, true_and]
      cases store.files.node? (Store.place relpath) with
      | none => exact iff_of_false nofun nofun
      | some node => cases node with
        | dir => exact iff_of_false nofun nofun
        | file c => simp [Seen.ofNode]

end Transaction

end Depot
