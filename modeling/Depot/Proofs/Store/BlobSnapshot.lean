/-
Readers while others commit. What a reader sees of records is the index
it began on; what it sees of a blob is whether the relpath was committed
then, and what lies at its place now. `Meanwhile` is what others may do
without a refused commit, and `seen_meanwhile_iff` says which relpaths go
on looking the same: those that were not committed, and those at whose
places the commits, one after the other, leave what was there.
-/
import Depot.Proofs.Store.Shelf

namespace Depot.Site

open Files Transaction

variable {s t : Site} {who reader : Nat} {tx : Transaction}

/-- The transaction that a step commits, if it is one that commits. -/
def lands (s : Site) (who : Nat) : Action → List Transaction
  | .commit => (s.opened who).toList
  | .restart true => (s.opened who).toList
  | _ => []

/-- Steps that one transaction does not take part in, of which no commit is
refused, and the transactions that they commit, in order. -/
inductive Meanwhile (reader : Nat) (s : Site) : List Transaction → Site → Prop
  | refl : Meanwhile reader s [] s
  | snoc {landed : List Transaction} {t u : Site} {e : Event} :
      Meanwhile reader s landed t → e.who ≠ reader → t.act e.who e.action = some (u, e.answer) →
      (e.answer.isOk = true ∨ ∃ edit, e.action = .edit edit) →
      Meanwhile reader s (landed ++ t.lands e.who e.action) u

theorem Steps.meanwhile_refl {events : List Event} (_ : Steps s events t) (reader : Nat) :
    Meanwhile reader t [] t := .refl

/-- They are steps. -/
theorem Meanwhile.steps {landed : List Transaction} (h : Meanwhile reader s landed t) :
    ∃ events, Steps s events t := by
  induction h with
  | refl => exact ⟨[], .refl⟩
  | snoc _ _ hact _ ih =>
      obtain ⟨events, hsteps⟩ := ih
      exact ⟨_, .snoc hsteps hact⟩

/-- What others do leaves a transaction open as it is. -/
theorem Move.opened_of_ne {a : Action} {answer : Except StoreError UInt64}
    (h : Move s who a answer t) (hne : reader ≠ who) : t.opened reader = s.opened reader := by
  cases h with
  | editRefused => rfl
  | begin | edit | close | commit | commitRefused | renew | recommit | recommitRefused =>
      exact settle_opened_of_ne _ hne

theorem Meanwhile.opened {landed : List Transaction} (h : Meanwhile reader s landed t)
    (hsane : s.Sane) : t.opened reader = s.opened reader := by
  induction h with
  | refl => rfl
  | @snoc landed u v e hbefore hne hact _ ih =>
      obtain ⟨events, hsteps⟩ := hbefore.steps
      exact (((hsteps.sane hsane).move hact).opened_of_ne (Ne.symm hne)).trans ih

/-- A transaction without changes leaves everything as it was. -/
theorem leaves_of_clean (h : tx.hasChanges = false) (filesRoot : String) (q : Place)
    (node : Option Node) : tx.leaves filesRoot q node = node := by
  unfold leaves
  rw [removals_eq_nil h, staged_eq_nil h]
  cases node with
  | none => rfl
  | some node => cases node <;> rfl

/-- What lies where after a step by which no commit is refused. -/
theorem Move.node {a : Action} {answer : Except StoreError UInt64} (hs : s.Shelved)
    (h : Move s who a answer t)
    (hok : answer.isOk = true ∨ ∃ edit, a = .edit edit) (q : Place) :
    t.store.root = s.store.root
      ∧ t.store.files.node? q
        = (s.lands who a).foldl (fun node other => other.leaves s.store.filesRoot q node)
            (s.store.files.node? q) := by
  have hclean : ∀ tx, s.opened who = some tx → tx.hasChanges = false →
      (s.opened who).toList.foldl (fun node other => other.leaves s.store.filesRoot q node)
        (s.store.files.node? q) = s.store.files.node? q := by
    intro tx hopen hchanges
    rw [hopen]
    exact leaves_of_clean hchanges _ _ _
  have hlanded : ∀ tx after, s.opened who = some tx → tx.Placed s.store after →
      (landed tx after s.store.index).root = s.store.root
        ∧ (landed tx after s.store.index).files.node? q
          = (s.opened who).toList.foldl (fun node other => other.leaves s.store.filesRoot q node)
              (s.store.files.node? q) := by
    intro tx after hopen hplaced
    have hpends := hs.pends who tx hopen
    rw [hopen]
    exact ⟨(landed_stands hplaced hpends hs.closed hs.current).1,
      node?_landed hplaced hpends hs.closed q⟩
  cases h with
  | begin | edit | editRefused => exact ⟨rfl, rfl⟩
  | @close tx a hopen ha =>
      refine ⟨rfl, ?_⟩
      rcases ha with rfl | rfl | ⟨rfl, hchanges⟩
      · rfl
      · rfl
      · exact (hclean tx hopen hchanges).symm
  | @commit tx after hopen hwrites hchanges hplaced => exact hlanded tx after hopen hplaced
  | @renew tx writable n hopen hlock hchanges hserial =>
      refine ⟨rfl, ?_⟩
      cases writable with
      | false => rfl
      | true => exact (hclean tx hopen (hchanges rfl)).symm
  | @recommit tx after hopen hwrites hchanges hplaced => exact hlanded tx after hopen hplaced
  | commitRefused | recommitRefused =>
      rcases hok with hok | ⟨_, hedit⟩
      · cases hok
      · cases hedit

/-- What lies where after what others did. -/
theorem Meanwhile.node {landed : List Transaction} (h : Meanwhile reader s landed t)
    (hsane : s.Sane) (hs : s.Shelved) (q : Place) :
    t.store.root = s.store.root
      ∧ t.store.files.node? q
        = landed.foldl (fun node other => other.leaves s.store.filesRoot q node)
            (s.store.files.node? q) := by
  induction h with
  | refl => exact ⟨rfl, rfl⟩
  | @snoc landed u v e hbefore _ hact hok ih =>
      obtain ⟨events, hsteps⟩ := hbefore.steps
      obtain ⟨hroot, hnode⟩ :=
        ((hsteps.sane hsane).move hact).node (hsteps.shelved hsane hs) hok q
      obtain ⟨hroot', hnode'⟩ := ih
      refine ⟨hroot.trans hroot', ?_⟩
      rw [List.foldl_append, ← hnode', hnode, filesRoot_congr hroot']

/-- A reader goes on seeing a blob as it was just if the relpath was not
committed when it began, or what the others commit leaves at its place
what was there. -/
theorem seen_meanwhile_iff {root cwd : String} {events : List Event} {landed : List Transaction}
    {view : Index} (h : Steps (empty root cwd) events s) (hopen : s.opened reader = some tx)
    (hreads : tx.writable = false) (hview : tx.view = some view)
    (hlater : Meanwhile reader s landed t) :
    t.opened reader = some tx
      ∧ ∀ relpath, tx.seen t.store relpath = tx.seen s.store relpath
        ↔ (view.blobs.contains relpath = true →
            landed.foldl
                (fun node other => other.leaves s.store.filesRoot (Store.place relpath) node)
                (s.store.files.node? (Store.place relpath))
              = s.store.files.node? (Store.place relpath)) := by
  have hsane := h.sane (sane_empty root cwd)
  have hshelved := h.shelved (sane_empty root cwd) (shelved_empty root cwd)
  obtain ⟨later, hsteps⟩ := hlater.steps
  have hshelved' := hsteps.shelved hsane hshelved
  have hopen' : t.opened reader = some tx := (hlater.opened hsane).trans hopen
  refine ⟨hopen', fun relpath => ?_⟩
  have hpending : tx.blobs[relpath]? = none := by
    rw [blobs_eq_empty ((hsane.fit reader tx hopen).clean hreads)]
    exact Std.ExtTreeMap.getElem?_empty
  obtain ⟨hroot, hnode⟩ := hlater.node hsane hshelved (Store.place relpath)
  rw [← hnode]
  exact seen_eq_iff hview hpending hroot hshelved.closed hshelved'.closed
    (hshelved.views reader tx view hopen hview relpath)
    (hshelved'.views reader tx view hopen' hview relpath)

set_option maxRecDepth 20000 in
/-- A reader sees what is committed later, where it is put in place of what
it saw. -/
theorem seen_meanwhile_replaced : ∃ events s t tx landed,
    (empty "depot" "/").run
      [(0, .begin true), (0, .edit (.setBlob "a/x" [1])), (0, .commit), (1, .begin false)]
        = some (events, s)
    ∧ s.opened 1 = some tx ∧ Meanwhile 1 s landed t ∧ t.opened 1 = some tx
    ∧ tx.getBlob s.store "a/x" = .ok (some [1]) ∧ tx.getBlob t.store "a/x" = .ok (some [2]) := by
  have hrun : (empty "depot" "/").run
      [(0, .begin true), (0, .edit (.setBlob "a/x" [1])), (0, .commit), (1, .begin false)]
        = some (_, _) := rfl
  have hbegin := Meanwhile.snoc (e := ⟨2, .begin true, .ok 1⟩)
    ((steps_of_run hrun).meanwhile_refl 1) (by decide) rfl (.inl rfl)
  have hset := Meanwhile.snoc (e := ⟨2, .edit (.setBlob "a/x" [2]), .ok 1⟩) hbegin (by decide) rfl
    (.inl rfl)
  have hlater := Meanwhile.snoc (e := ⟨2, .commit, .ok 2⟩) hset (by decide) rfl (.inl rfl)
  obtain ⟨hopen, -⟩ := seen_meanwhile_iff (steps_of_run hrun) rfl rfl rfl hlater
  exact ⟨_, _, _, _, _, hrun, rfl, hlater, hopen, rfl, rfl⟩

end Depot.Site
