/-
Commits that are refused. The index, and with it the records and the
serial, is as before; the files need not be: the blobs that come before
the refused one are in their places already. `refused_commit` says what
is seen afterwards: a blob looks as before just if what the commit has
left at its place is what was there.
-/
import Depot.Proofs.Store.Shelf

namespace Depot.Site

open Files Transaction

variable {s t : Site} {who : Nat} {tx : Transaction}

/-- A commit that is refused, by itself or in a restart. -/
theorem Move.refused {a : Action} {e : StoreError} (h : Move s who a (.error e) t)
    (hopen : s.opened who = some tx) (ha : a = .commit ∨ a = .restart true) :
    tx.Refused s.store t.store e := by
  cases h with
  | editRefused => rcases ha with ha | ha <;> cases ha
  | commitRefused hopen' hwrites hchanges hrefused =>
      rw [hopen] at hopen'
      cases hopen'
      exact hrefused
  | recommitRefused hopen' hwrites hchanges hrefused =>
      rw [hopen] at hopen'
      cases hopen'
      exact hrefused

/-- What records a transaction with a view answers does not depend on the
store. -/
theorem get_of_live (hlive : tx.view.isSome = true) (store store' : Store) :
    tx.get store = tx.get store' ∧ tx.hasRecord store = tx.hasRecord store'
      ∧ tx.keys store = tx.keys store' := by
  obtain ⟨view, hview⟩ := Option.isSome_iff_exists.1 hlive
  have hobserved : tx.observed store = tx.observed store' := by
    rw [observed_eq hview, observed_eq hview]
  have hget : tx.get store = tx.get store' := by
    funext key
    unfold Transaction.get
    rw [hobserved]
  refine ⟨hget, ?_, ?_⟩
  · funext key
    unfold hasRecord
    rw [hget]
  · funext lead
    unfold keys
    rw [hobserved]

/-- A commit that is refused leaves the index as it was, and transactions
begun afterwards answer the same for records. It has moved the blobs that
come before the refused one, and may have made directories where nothing
was; a blob is seen as before just if it is not committed or what was
moved leaves at its place what was there. -/
theorem refused_commit {root cwd : String} {events : List Event} {a : Action} {e : StoreError}
    (h : Steps (empty root cwd) events s) (hopen : s.opened who = some tx)
    (ha : a = .commit ∨ a = .restart true) (hact : s.act who a = some (t, .error e)) :
    t.store.index = s.store.index
      ∧ tx.laid s.store <+: tx.staged ∧ tx.laid s.store ≠ tx.staged
      ∧ (∀ q, tx.makes s.store q = true →
          s.store.files.node? q = none ∧ isAbove tx.staged q = true)
      ∧ ∀ writable, ∃ later, start t.store writable = .ok later
        ∧ start s.store writable = .ok later
        ∧ later.get t.store = later.get s.store
        ∧ later.hasRecord t.store = later.hasRecord s.store
        ∧ later.keys t.store = later.keys s.store
        ∧ ∀ relpath, later.seen t.store relpath = later.seen s.store relpath
          ↔ (s.store.index.blobs.contains relpath = true →
              tx.laidAt s.store (Store.place relpath)
                = s.store.files.node? (Store.place relpath)) := by
  have hsane := h.sane (sane_empty root cwd)
  have hshelved := h.shelved (sane_empty root cwd) (shelved_empty root cwd)
  have hmove := hsane.move hact
  have hshelved' := hmove.shelved hshelved
  have hrefused := hmove.refused hopen ha
  have hindex := refused_index hrefused
  have hroot : t.store.root = s.store.root := by rw [hrefused.frame]
  have hpends := hshelved.pends who tx hopen
  obtain ⟨hlaid, hprefix, hne⟩ := hrefused.laid hpends
  refine ⟨hindex, hprefix, hne, fun q => makes_spec hpends, fun writable => ?_⟩
  obtain ⟨n, hserial⟩ := hsane.serial
  have hstart := start_eq hserial writable
  have hserial' : t.store.index.serial = some (toString n) := by rw [hindex]; exact hserial
  have hstart' := start_eq hserial' writable
  have hfresh := fresh_congr hindex n writable
  obtain ⟨hget, hhas, hkeys⟩ :=
    get_of_live (show (fresh s.store n writable).view.isSome = true from rfl) t.store s.store
  refine ⟨fresh s.store n writable, by rw [hstart', hfresh], hstart, hget, hhas, hkeys,
    fun relpath => ?_⟩
  rw [← hlaid.node]
  refine seen_eq_iff rfl ?_ hroot hshelved.closed hshelved'.closed
    (hshelved.current relpath) ?_
  · simp [fresh]
  · rw [← hindex]
    exact hshelved'.current relpath

set_option maxRecDepth 20000 in
/-- A commit that is refused at its second blob replaces the first. -/
theorem refused_commit_replaces : ∃ events s t tx e later,
    (empty "depot" "/").run
      [(0, .begin true), (0, .edit (.setBlob "a/x" [1])), (0, .edit (.setBlob "b/c" [1])),
        (0, .commit), (1, .begin true), (1, .edit (.setBlob "a/x" [2])),
        (1, .edit (.setBlob "b" [2]))] = some (events, s)
    ∧ s.opened 1 = some tx ∧ s.act 1 .commit = some (t, .error e)
    ∧ t.store.index = s.store.index ∧ start t.store false = .ok later
    ∧ later.getBlob s.store "a/x" = .ok (some [1])
    ∧ later.getBlob t.store "a/x" = .ok (some [2]) := by
  have hrun : (empty "depot" "/").run
      [(0, .begin true), (0, .edit (.setBlob "a/x" [1])), (0, .edit (.setBlob "b/c" [1])),
        (0, .commit), (1, .begin true), (1, .edit (.setBlob "a/x" [2])),
        (1, .edit (.setBlob "b" [2]))] = some (_, _) := rfl
  obtain ⟨hindex, -⟩ := @refused_commit _ _ 1 _ _ _ _ _ _ (steps_of_run hrun) rfl (.inl rfl) rfl
  exact ⟨_, _, _, _, _, _, hrun, rfl, rfl, hindex, rfl, rfl, rfl⟩

end Depot.Site
