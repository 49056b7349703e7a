/-
A site: one store and the transactions that are open on it, any number at
once, of which one at most may write. What the transactions are asked to
do comes in any order; `Site.act` is one step and `Site.Steps` any number
of them.

Every site that steps lead to from an empty store is `Sane`: open
transactions have a view of the index, and that of the one that writes is
the current index, with the current serial. The rest of the theory of
runs rests on this and on `commit_cases`.
-/
import Depot.Proofs.Store.Commit

namespace Depot

/-- A change that a transaction keeps aside. -/
inductive Edit where
  | set (key : String) (value : Json)
  | delete (key : String)
  | setBlob (relpath : String) (content : Bytes)
  | deleteBlob (relpath : String)

/-- The transaction with a change made. -/
def Transaction.edit (tx : Transaction) : Edit → Except StoreError Transaction
  | .set key value => tx.set key value
  | .delete key => tx.delete key
  | .setBlob relpath content => tx.setBlob relpath content
  | .deleteBlob relpath => tx.deleteBlob relpath

/-- What can be asked of a transaction, or to begin one. -/
inductive Action where
  | begin (writable : Bool)
  | edit (e : Edit)
  | commit
  | rollback
  | drop
  | restart (writable : Bool)

/-- A store and the transactions that are open on it. -/
structure Site where
  store : Store
  opened : Nat → Option Transaction := fun _ => none
  /-- Who may write. -/
  lock : Option Nat := none

namespace Site

/-- Nothing is committed and no transaction is open. -/
def empty (root cwd : String) : Site := { store := { root, cwd } }

/-- The site with the store and one of the transactions changed. -/
def settle (s : Site) (store : Store) (who : Nat) (tx : Option Transaction) : Site where
  store := store
  opened i := if i = who then tx else s.opened i
  lock :=
    if tx.any (·.writable) then some who
    else if s.lock = some who then none
    else s.lock

/-- One step: what it leaves behind and the serial or error it is
answered with. A step is not possible for a transaction that is not open,
or as long as another one writes. -/
def act (s : Site) (who : Nat) (a : Action) : Option (Site × Except StoreError UInt64) :=
  match s.opened who, a with
  | none, .begin writable =>
      if writable ∧ s.lock.isSome then none
      else match Transaction.start s.store writable with
        | .ok tx => some (s.settle s.store who (some tx), .ok tx.serial)
        | .error e => some (s, .error e)
  | some tx, .edit e =>
      match tx.edit e with
      | .ok tx => some (s.settle s.store who (some tx), .ok tx.serial)
      | .error e => some (s, .error e)
  | some tx, .commit =>
      let (store, _, answer) := tx.commit s.store
      some (s.settle store who none, answer)
  | some tx, .rollback => some (s.settle s.store who none, .ok tx.serial)
  | some tx, .drop => some (s.settle s.store who none, .ok tx.serial)
  | some tx, .restart true =>
      if ¬tx.writable ∧ s.lock.isSome then none
      else
        let (store, tx, answer) := tx.restartAsWrite s.store
        some (s.settle store who (some tx), answer)
  | some tx, .restart false =>
      let (tx, answer) := tx.restartAsRead s.store
      some (s.settle s.store who (some tx), answer)
  | _, _ => none

/-- A step that was taken. -/
structure Event where
  who : Nat
  action : Action
  answer : Except StoreError UInt64

/-- The steps that lead from one site to another. -/
inductive Steps (s : Site) : List Event → Site → Prop
  | refl : Steps s [] s
  | snoc {events : List Event} {t u : Site} {e : Event} :
      Steps s events t → t.act e.who e.action = some (u, e.answer) → Steps s (events ++ [e]) u

/-- The steps that a list of demands comes to, if all of them are
possible. -/
def run (s : Site) : List (Nat × Action) → Option (List Event × Site)
  | [] => some ([], s)
  | (who, a) :: rest =>
      match s.act who a with
      | none => none
      | some (t, answer) => (t.run rest).map fun (events, u) => (⟨who, a, answer⟩ :: events, u)

variable {s t : Site} {store : Store} {who i : Nat} {tx : Transaction}

theorem Steps.cons {events : List Event} {e : Event} {u : Site}
    (hact : s.act e.who e.action = some (t, e.answer)) (h : Steps t events u) :
    Steps s (e :: events) u := by
  induction h with
  | refl => exact .snoc .refl hact
  | snoc _ hlast ih => exact .snoc ih hlast

/-- The steps before one, the step and those after it. -/
theorem Steps.split {before after : List Event} {e : Event}
    (h : Steps s (before ++ e :: after) t) :
    ∃ u v, Steps s before u ∧ u.act e.who e.action = some (v, e.answer) ∧ Steps v after t := by
  generalize hevents : before ++ e :: after = events at h
  induction h generalizing after with
  | refl => simp at hevents
  | @snoc events u w last hsteps hact ih =>
      rcases List.eq_nil_or_concat after with rfl | ⟨rest, final, rfl⟩
      · obtain ⟨rfl, hlast⟩ := List.append_inj' hevents rfl
        cases hlast
        exact ⟨u, w, hsteps, hact, .refl⟩
      · rw [List.concat_eq_append, ← List.cons_append, ← List.append_assoc] at hevents
        obtain ⟨hinit, hlast⟩ := List.append_inj' hevents rfl
        cases hlast
        obtain ⟨u', v, hbefore, hstep, hafter⟩ := ih hinit
        rw [List.concat_eq_append]
        exact ⟨u', v, hbefore, hstep, .snoc hafter hact⟩

/-- Running a list of demands takes steps. -/
theorem steps_of_run {demands : List (Nat × Action)} {events : List Event}
    (h : s.run demands = some (events, t)) : Steps s events t := by
  induction demands generalizing s events with
  | nil =>
      cases h
      exact .refl
  | cons demand rest ih =>
      obtain ⟨who, a⟩ := demand
      unfold run at h
      split at h
      · cases h
      · next u answer hact =>
        obtain ⟨⟨later, v⟩, hrun, heq⟩ := Option.map_eq_some_iff.1 h
        cases heq
        exact .cons (e := ⟨who, a, answer⟩) hact (ih hrun)

@[simp] theorem settle_store (tx : Option Transaction) : (s.settle store who tx).store = store :=
  rfl

@[simp] theorem settle_opened_self (tx : Option Transaction) :
    (s.settle store who tx).opened who = tx := if_pos rfl

theorem settle_opened_of_ne (tx : Option Transaction) (h : i ≠ who) :
    (s.settle store who tx).opened i = s.opened i := if_neg h

-- ===================================================== sane sites

/-- A transaction that has not ended: one that may write sees the current
index, one that may not has no changes. -/
structure Fit (store : Store) (tx : Transaction) : Prop where
  live : tx.view.isSome = true
  current : tx.writable = true →
    tx.view = some store.index ∧ store.index.serial = some (toString tx.serial)
  clean : tx.writable = false → tx.hasChanges = false

/-- What holds at every site. -/
structure Sane (s : Site) : Prop where
  fit : ∀ i tx, s.opened i = some tx → Fit s.store tx
  writer : ∀ i tx, s.opened i = some tx → (tx.writable = true ↔ s.lock = some i)
  held : ∀ i, s.lock = some i → (s.opened i).isSome = true
  serial : ∃ n : UInt64, s.store.index.serial = some (toString n)

theorem sane_empty (root cwd : String) : (empty root cwd).Sane where
  fit _ _ h := nomatch h
  writer _ _ h := nomatch h
  held _ h := nomatch h
  serial := ⟨0, rfl⟩

/-- A transaction that has just begun. -/
def fresh (store : Store) (serial : UInt64) (writable : Bool) : Transaction where
  writable := writable
  serial := serial
  view := some store.index

theorem fresh_congr {after : Store} (h : after.index = store.index) (serial : UInt64)
    (writable : Bool) : fresh after serial writable = fresh store serial writable := by
  unfold fresh
  rw [h]

/-- The serial is read back from its text. -/
theorem currentSerial_eq {n : UInt64} (h : store.index.serial = some (toString n)) :
    store.currentSerial = .ok n := by
  unfold Store.currentSerial Index.currentSerial
  rw [h]
  dsimp only
  rw [Transaction.natural?_serial]
  simp

/-- Where the serial is a number, a transaction starts with it. -/
theorem start_eq {n : UInt64} (h : store.index.serial = some (toString n)) (writable : Bool) :
    Transaction.start store writable = .ok (fresh store n writable) := by
  unfold Transaction.start
  rw [currentSerial_eq h]
  rfl

/-- A change of one transaction keeps a site sane, if no one else may
write or the index stays as it was. -/
theorem Sane.settle (hs : s.Sane) {tx : Option Transaction}
    (hserial : ∃ n : UInt64, store.index.serial = some (toString n))
    (hindex : store.index = s.store.index ∨ s.lock = some who)
    (hfit : ∀ t, tx = some t → Fit store t)
    (hlock : ∀ t, tx = some t → t.writable = true → s.lock = none ∨ s.lock = some who) :
    (s.settle store who tx).Sane where
  serial := hserial
  fit := by
    intro i t hi
    by_cases hwho : i = who
    · subst hwho
      rw [settle_opened_self] at hi
      exact hfit t hi
    · rw [settle_opened_of_ne _ hwho] at hi
      refine ⟨(hs.fit i t hi).live, fun hw => ?_, (hs.fit i t hi).clean⟩
      have hholds := (hs.writer i t hi).1 hw
      rcases hindex with hindex | hindex
      · rw [settle_store, hindex]
        exact (hs.fit i t hi).current hw
      · rw [hholds] at hindex
        exact absurd (Option.some.inj hindex) hwho
  writer := by
    intro i t hi
    unfold Site.settle at hi ⊢
    dsimp only at hi ⊢
    by_cases hwho : i = who
    · rw [if_pos hwho] at hi
      subst hwho hi
      cases hw : t.writable with
      | true => simp [hw]
      | false =>
          simp only [Option.any_some, hw, Bool.false_eq_true, ↓reduceIte, false_iff]
          split
          · exact nofun
          · next h => exact h
    · rw [if_neg hwho] at hi
      have hother := hs.writer i t hi
      split
      · next hany =>
        obtain ⟨w, hw, hwrites⟩ := Option.any_eq_true _ _ |>.1 hany
        rw [hother]
        rcases hlock w hw hwrites with h | h
        · simp [h, Ne.symm hwho]
        · simp [h]
      · split
        · next h => rw [hother, h]; simp [Ne.symm hwho]
        · exact hother
  held := by
    intro i hi
    unfold Site.settle at hi ⊢
    dsimp only at hi ⊢
    by_cases hwho : i = who
    · rw [if_pos hwho]
      subst hwho
      split at hi
      · next hany => exact Option.isSome_of_any hany
      · split at hi
        · cases hi
        · next h => exact absurd hi h
    · rw [if_neg hwho]
      split at hi
      · exact absurd (Option.some.inj hi).symm hwho
      · split at hi
        · cases hi
        · exact hs.held i hi

-- ===================================================== what a step does

/-- The store once the files of a transaction are in their places. -/
def landed (tx : Transaction) (after : Store) (index : Index) : Store :=
  Transaction.sweep { after with index := tx.overlay index } tx.removals

@[simp] theorem landed_index (tx : Transaction) (after : Store) (index : Index) :
    (landed tx after index).index = tx.overlay index := rfl

/-- What a step at a sane site comes to. -/
inductive Move (s : Site) (who : Nat) : Action → Except StoreError UInt64 → Site → Prop
  | begin {writable : Bool} {n : UInt64} (hfree : s.opened who = none)
      (hlock : writable = true → s.lock = none)
      (hserial : s.store.index.serial = some (toString n)) :
      Move s who (.begin writable) (.ok n) (s.settle s.store who (some (fresh s.store n writable)))
  | edit {tx tx' : Transaction} {e : Edit} (hopen : s.opened who = some tx)
      (hedit : tx.edit e = .ok tx') :
      Move s who (.edit e) (.ok tx'.serial) (s.settle s.store who (some tx'))
  | editRefused {tx : Transaction} {e : Edit} {err : StoreError} (hopen : s.opened who = some tx)
      (hedit : tx.edit e = .error err) : Move s who (.edit e) (.error err) s
  /-- The transaction ends and the store stays as it is. -/
  | close {tx : Transaction} {a : Action} (hopen : s.opened who = some tx)
      (ha : a = .rollback ∨ a = .drop ∨ a = .commit ∧ tx.hasChanges = false) :
      Move s who a (.ok tx.serial) (s.settle s.store who none)
  | commit {tx : Transaction} {after : Store} (hopen : s.opened who = some tx)
      (hwrites : tx.writable = true) (hchanges : tx.hasChanges = true)
      (hplaced : tx.Placed s.store after) :
      Move s who .commit (.ok (tx.serial + 1))
        (s.settle (landed tx after s.store.index) who none)
  | commitRefused {tx : Transaction} {after : Store} {e : StoreError}
      (hopen : s.opened who = some tx) (hwrites : tx.writable = true)
      (hchanges : tx.hasChanges = true) (hrefused : tx.Refused s.store after e) :
      Move s who .commit (.error e) (s.settle after who none)
  /-- The transaction starts over and the store stays as it is. -/
  | renew {tx : Transaction} {writable : Bool} {n : UInt64} (hopen : s.opened who = some tx)
      (hlock : writable = true → tx.writable = false → s.lock = none)
      (hchanges : writable = true → tx.hasChanges = false)
      (hserial : s.store.index.serial = some (toString n)) :
      Move s who (.restart writable) (.ok n)
        (s.settle s.store who (some (fresh s.store n writable)))
  | recommit {tx : Transaction} {after : Store} (hopen : s.opened who = some tx)
      (hwrites : tx.writable = true) (hchanges : tx.hasChanges = true)
      (hplaced : tx.Placed s.store after) :
      Move s who (.restart true) (.ok (tx.serial + 1))
        (s.settle (landed tx after s.store.index) who
          (some (fresh (landed tx after s.store.index) (tx.serial + 1) true)))
  | recommitRefused {tx : Transaction} {after : Store} {e : StoreError}
      (hopen : s.opened who = some tx) (hwrites : tx.writable = true)
      (hchanges : tx.hasChanges = true) (hrefused : tx.Refused s.store after e) :
      Move s who (.restart true) (.error e) (s.settle after who (some tx))

/-- How an open transaction of a sane site commits. -/
theorem Fit.commit_cases (h : Fit store tx) :
    (tx.hasChanges = false ∧ tx.commit store = (store, tx.ended tx.serial, .ok tx.serial))
    ∨ (tx.writable = true ∧ tx.hasChanges = true ∧ ∃ after e, tx.Refused store after e
        ∧ tx.commit store = (after, tx, .error e))
    ∨ (tx.writable = true ∧ tx.hasChanges = true ∧ ∃ after, tx.Placed store after
        ∧ tx.commit store = (landed tx after store.index, tx.ended (tx.serial + 1),
            .ok (tx.serial + 1))) := by
  obtain ⟨view, hview⟩ := Option.isSome_iff_exists.1 h.live
  have hwrites : tx.hasChanges = true → tx.writable = true := by
    intro hchanges
    cases hw : tx.writable with
    | true => rfl
    | false => exact absurd (h.clean hw) (by simp [hchanges])
  rcases Transaction.commit_cases hview store with
    hidle | ⟨hchanges, hrefused⟩ | ⟨hchanges, after, hplaced, hcommit⟩
  · exact .inl hidle
  · exact .inr (.inl ⟨hwrites hchanges, hchanges, hrefused⟩)
  · obtain rfl : view = store.index :=
      Option.some.inj (hview.symm.trans (h.current (hwrites hchanges)).1)
    exact .inr (.inr ⟨hwrites hchanges, hchanges, after, hplaced, hcommit⟩)

/-- The serial of an index that a transaction has landed on. -/
theorem Fit.landed_serial (h : Fit store tx) (hwrites : tx.writable = true) (after : Store) :
    (landed tx after store.index).index.serial = some (toString (tx.serial + 1)) := by
  rw [landed_index]
  unfold Transaction.overlay
  dsimp only
  rw [(h.current hwrites).2]
  rfl

/-- Every step at a sane site is such a move. -/
theorem Sane.move (hs : s.Sane) {a : Action} {answer : Except StoreError UInt64}
    (h : s.act who a = some (t, answer)) : Move s who a answer t := by
  obtain ⟨n, hserial⟩ := hs.serial
  unfold act at h
  split at h
  · -- begin
    next writable hfree =>
    split at h
    · cases h
    · next hlock =>
      rw [start_eq hserial] at h
      cases h
      refine .begin hfree (fun hw => ?_) hserial
      simpa [hw] using hlock
  · -- edit
    next tx e hopen =>
    split at h
    · next hedit => cases h; exact .edit hopen hedit
    · next hedit => cases h; exact .editRefused hopen hedit
  · -- commit
    next tx hopen =>
    rcases (hs.fit who tx hopen).commit_cases with
      ⟨hchanges, hcommit⟩ | ⟨hwrites, hchanges, after, e, hrefused, hcommit⟩
      | ⟨hwrites, hchanges, after, hplaced, hcommit⟩
    · rw [hcommit] at h
      cases h
      exact .close hopen (.inr (.inr ⟨rfl, hchanges⟩))
    · rw [hcommit] at h
      cases h
      exact .commitRefused hopen hwrites hchanges hrefused
    · rw [hcommit] at h
      cases h
      exact .commit hopen hwrites hchanges hplaced
  · -- rollback
    next tx hopen => cases h; exact .close hopen (.inl rfl)
  · -- drop
    next tx hopen => cases h; exact .close hopen (.inr (.inl rfl))
  · -- restart as write
    next tx hopen =>
    split at h
    · cases h
    · next hlock =>
      unfold Transaction.restartAsWrite at h
      cases hw : tx.writable with
      | false =>
          rw [hw, if_neg (by decide)] at h
          unfold Transaction.startOver at h
          rw [start_eq hserial] at h
          cases h
          refine .renew hopen (fun _ _ => ?_) (fun _ => (hs.fit who tx hopen).clean hw) hserial
          simpa [hw] using hlock
      | true =>
          have hnot : true = true → tx.writable = false → s.lock = none := by simp [hw]
          rw [hw, if_pos rfl] at h
          rcases (hs.fit who tx hopen).commit_cases with
            ⟨hchanges, hcommit⟩ | ⟨hwrites, hchanges, after, e, hrefused, hcommit⟩
            | ⟨hwrites, hchanges, after, hplaced, hcommit⟩
          · rw [hcommit] at h
            unfold Transaction.startOver at h
            dsimp only at h
            rw [start_eq hserial] at h
            cases h
            exact .renew hopen hnot (fun _ => hchanges) hserial
          · rw [hcommit] at h
            cases h
            exact .recommitRefused hopen hwrites hchanges hrefused
          · rw [hcommit] at h
            unfold Transaction.startOver at h
            dsimp only at h
            rw [start_eq ((hs.fit who tx hopen).landed_serial hwrites after)] at h
            cases h
            exact .recommit hopen hwrites hchanges hplaced
  · -- restart as read
    next tx hopen =>
    unfold Transaction.restartAsRead Transaction.startOver at h
    rw [start_eq hserial] at h
    cases h
    exact .renew hopen (by simp) (by simp) hserial
  · cases h

/-- An edit is kept aside by a transaction that may write. -/
theorem edit_eq {tx' : Transaction} {e : Edit} (h : tx.edit e = .ok tx') :
    tx.writable = true ∧ tx' = { tx with records := tx'.records, blobs := tx'.blobs } := by
  cases e with
  | set key value =>
      obtain ⟨hw, rfl⟩ := Transaction.change_eq h
      exact ⟨hw, rfl⟩
  | delete key =>
      obtain ⟨hw, rfl⟩ := Transaction.change_eq h
      exact ⟨hw, rfl⟩
  | setBlob relpath content =>
      obtain ⟨hw, -, rfl⟩ := Transaction.changeBlob_eq h
      exact ⟨hw, rfl⟩
  | deleteBlob relpath =>
      obtain ⟨hw, -, rfl⟩ := Transaction.changeBlob_eq h
      exact ⟨hw, rfl⟩

theorem Fit.edit (h : Fit store tx) {tx' : Transaction} {e : Edit} (hedit : tx.edit e = .ok tx') :
    Fit store tx' := by
  obtain ⟨hw, heq⟩ := edit_eq hedit
  rw [heq]
  exact ⟨h.live, h.current, fun hr => absurd hw (by simp [show tx.writable = false from hr])⟩

theorem fit_fresh {n : UInt64} (h : store.index.serial = some (toString n)) (writable : Bool) :
    Fit store (fresh store n writable) :=
  ⟨rfl, fun _ => ⟨rfl, h⟩, fun _ => rfl⟩

/-- Who refused changes of a transaction sees the same index. -/
theorem refused_index {after : Store} {e : StoreError} (h : tx.Refused store after e) :
    after.index = store.index := by
  rw [h.frame]

/-- A step at a sane site leads to a sane site. -/
theorem Move.sane {a : Action} {answer : Except StoreError UInt64} (hs : s.Sane)
    (h : Move s who a answer t) : t.Sane := by
  cases h with
  | begin hfree hlock hserial =>
      refine hs.settle ⟨_, hserial⟩ (.inl rfl) ?_ ?_
      · intro u hu
        cases hu
        exact fit_fresh hserial _
      · intro u hu hw
        cases hu
        exact .inl (hlock hw)
  | @edit tx tx' e hopen hedit =>
      refine hs.settle hs.serial (.inl rfl) ?_ ?_
      · intro u hu
        cases hu
        exact (hs.fit who tx hopen).edit hedit
      · intro u hu _
        cases hu
        exact .inr ((hs.writer who tx hopen).1 (edit_eq hedit).1)
  | editRefused hopen hedit => exact hs
  | close hopen ha => exact hs.settle hs.serial (.inl rfl) (by simp) (by simp)
  | @commit tx after hopen hwrites hchanges hplaced =>
      exact hs.settle ⟨_, (hs.fit who tx hopen).landed_serial hwrites after⟩
        (.inr ((hs.writer who tx hopen).1 hwrites)) (by simp) (by simp)
  | commitRefused hopen hwrites hchanges hrefused =>
      have hindex := refused_index hrefused
      exact hs.settle (by rw [hindex]; exact hs.serial) (.inl hindex) (by simp) (by simp)
  | @renew tx writable n hopen hlock hchanges hserial =>
      refine hs.settle ⟨_, hserial⟩ (.inl rfl) ?_ ?_
      · intro u hu
        cases hu
        exact fit_fresh hserial _
      · intro u hu hw
        cases hu
        cases hwrites : tx.writable with
        | true => exact .inr ((hs.writer who tx hopen).1 hwrites)
        | false => exact .inl (hlock hw hwrites)
  | @recommit tx after hopen hwrites hchanges hplaced =>
      have hserial := (hs.fit who tx hopen).landed_serial hwrites after
      have hheld := (hs.writer who tx hopen).1 hwrites
      refine hs.settle ⟨_, hserial⟩ (.inr hheld) ?_ ?_
      · intro u hu
        cases hu
        exact fit_fresh hserial _
      · intro u hu _
        cases hu
        exact .inr hheld
  | @recommitRefused tx after e hopen hwrites hchanges hrefused =>
      have hindex := refused_index hrefused
      have hfit := hs.fit who tx hopen
      refine hs.settle (by rw [hindex]; exact hs.serial) (.inl hindex) ?_ ?_
      · intro u hu
        cases hu
        exact ⟨hfit.live, by rw [hindex]; exact hfit.current, hfit.clean⟩
      · intro u hu _
        cases hu
        exact .inr ((hs.writer who tx hopen).1 hwrites)

/-- So does any number of steps. -/
theorem Steps.sane {events : List Event} (h : Steps s events t) (hs : s.Sane) : t.Sane := by
  induction h with
  | refl => exact hs
  | snoc _ hact ih => exact (ih.move hact).sane ih

end Site

end Depot
