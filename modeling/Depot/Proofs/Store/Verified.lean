/-
Content and declared digests over whole runs. A site is `Verified` if
whatever a transaction sees, one that is open or one that would begin, has
the digest that it sees declared. Runs are of operations through handles,
any handles, with any web, and of beginning, committing, restarting and
ending any number of transactions.

Two things lead away from verified sites, and `verified_iff_harmless` says
that no others do: a link that declares a digest which the content at its
relpath does not have (`Op.Sound`), and a commit that puts content where a
transaction sees another digest declared (`PutsTrusted`), either because
the transaction began before, or because the commit was refused, or
because two relpaths name one place.
-/
import Depot.Proofs.Store.Atomicity
import Depot.Proofs.Store.BlobSnapshot
import Depot.Proofs.Store.Handles
import Depot.Proofs.Store.Puts

namespace Depot

open Files Transaction

namespace Entry

/-- What is done to entries. -/
inductive Op where
  /-- Maps a link. -/
  | map (raw : String)
  | fetch (e : Entry) (web : Web) (now : String) (url : Option String)
  | upload (now user index basename : String) (content : Bytes)
  | deleteContent (e : Entry)
  | delete (e : Entry)

variable {algo : Digest.Algo} {store : Store} {tx t : Transaction} {relpath : String}

namespace Op

/-- The transaction after an operation, which may be refused. -/
def apply (algo : Digest.Algo) (store : Store) (tx : Transaction) : Op → Transaction
  | .map raw =>
      match Link.parse raw with
      | .error _ => tx
      | .ok link =>
          match ofLink tx store algo link with
          | .ok (_, t) => t
          | .error _ => tx
  | .fetch e web now url => (e.fetch tx web now url).tx
  | .upload now user index basename content =>
      match Entry.upload tx store algo now user index basename content with
      | .ok (_, t) => t
      | .error _ => tx
  | .deleteContent e => (e.deleteContent tx).tx
  | .delete e => (e.delete tx).tx

/-- An operation declares no digest for content that does not have it. Only
mapping a link could. -/
def Sound (algo : Digest.Algo) (store : Store) (tx : Transaction) : Op → Prop
  | .map raw =>
      tx.writable = true → ∀ link found spec content, Link.parse raw = .ok link →
        load tx store algo link.relpath = .ok found → link.hash = some spec →
        tx.getBlob store link.relpath = .ok (some content) → spec.accepts content = true
  | _ => True

end Op

theorem Upholds.handled (h : Upholds relpath tx t) : Handled relpath tx t := by
  rcases h with rfl | ⟨h, -⟩
  · exact .refl
  · exact h

theorem Upholds.trusts (h : Upholds relpath tx t) (ht : Trusts tx store relpath) :
    Trusts t store relpath := by
  rcases h with rfl | ⟨-, h⟩
  · exact ht
  · exact h store

/-- An operation changes one relpath, and leaves it trusted just if it is
sound. -/
theorem Op.spec (op : Op) (algo : Digest.Algo) (htrusts : ∀ relpath, Trusts tx store relpath) :
    ∃ relpath, Handled relpath tx (op.apply algo store tx)
      ∧ (Trusts (op.apply algo store tx) store relpath ↔ op.Sound algo store tx) := by
  have hupheld : ∀ {relpath t}, Upholds relpath tx t →
      Handled relpath tx t ∧ (Trusts t store relpath ↔ True) :=
    fun h => ⟨h.handled, iff_true_intro (h.trusts (htrusts _))⟩
  cases op with
  | fetch e web now url => exact ⟨_, hupheld (upholds_fetch e tx web now url)⟩
  | deleteContent e => exact ⟨_, hupheld (upholds_deleteContent e tx)⟩
  | delete e => exact ⟨_, hupheld (upholds_delete e tx)⟩
  | upload now user index basename content =>
      unfold apply
      dsimp only
      split
      · next hupload =>
        obtain ⟨relpath, h⟩ := upholds_upload hupload
        exact ⟨relpath, hupheld h⟩
      · exact ⟨basename, hupheld (.inl rfl)⟩
  | map raw =>
      unfold apply Sound
      dsimp only
      cases hlink : Link.parse raw with
      | error err =>
          exact ⟨raw, .refl, iff_of_true (htrusts _) fun _ _ _ _ _ h => nomatch h⟩
      | ok link =>
          dsimp only
          cases hmap : ofLink tx store algo link with
          | error err =>
              refine ⟨link.relpath, .refl, iff_of_true (htrusts _) ?_⟩
              intro hw link' found spec content heq hload
              cases heq
              -- such a transaction writes, so it is the record that was not read
              unfold ofLink persist Transaction.set at hmap
              rw [hload] at hmap
              dsimp only at hmap
              rw [change_of_writable hw] at hmap
              split at hmap <;> cases hmap
          | ok result =>
              obtain ⟨e, t⟩ := result
              obtain ⟨found, hload, -, hcases⟩ := ofLink_spec hmap
              refine ⟨link.relpath, ?_, (trusts_ofLink_iff hlink hmap (htrusts _)).trans ?_⟩
              · rcases hcases with ⟨rfl, -⟩ | ⟨-, h, -⟩
                · exact .refl
                · exact h
              · constructor
                · intro h hw link' _ spec content heq _
                  cases heq
                  exact h hw spec content
                · intro h hw spec content
                  exact h hw link found spec content rfl hload

/-- From a transaction that trusts everything, an operation leads to such a
transaction just if it is sound. -/
theorem Op.trusts_iff (op : Op) (algo : Digest.Algo)
    (htrusts : ∀ relpath, Trusts tx store relpath) :
    (∀ relpath, Trusts (op.apply algo store tx) store relpath) ↔ op.Sound algo store tx := by
  obtain ⟨relpath, hhandled, hiff⟩ := op.spec algo htrusts
  refine ⟨fun h => hiff.1 (h relpath), fun h other => ?_⟩
  by_cases hother : other = relpath
  · subst hother
    exact hiff.2 h
  · exact (hhandled.elsewhere.trusts_iff hother).2 (htrusts other)

end Entry

namespace Transaction

variable {tx : Transaction} {store : Store} {relpath : String}

/-- The values that a transaction sets are records of entries. -/
def Recorded (tx : Transaction) : Prop :=
  ∀ (key : String) (value : Json), tx.records[key]? = some (some value) →
    ∃ r : FileRecord, value = r.toJson

/-- What is done through handles keeps a transaction fit, with blobs at
relpaths that name files, and its values records. -/
theorem keeps_of_handled {t : Transaction} (h : Entry.Handled relpath tx t)
    (hfit : Site.Fit store tx) (hpends : tx.Pends) (hrecorded : tx.Recorded) :
    Site.Fit store t ∧ t.Pends ∧ t.Recorded := by
  induction h with
  | refl => exact ⟨hfit, hpends, hrecorded⟩
  | @record t u r _ hset ih =>
      obtain ⟨hfit, hpends, hrecorded⟩ := ih
      have hedit : t.edit (.set (Entry.keyOf relpath) r.toJson) = .ok u := hset
      refine ⟨hfit.edit hedit, Site.pends_edit hpends hedit, fun key value hkey => ?_⟩
      obtain ⟨-, rfl⟩ := change_eq hset
      rw [Std.ExtTreeMap.getElem?_insert] at hkey
      split at hkey
      · cases hkey
        exact ⟨r, rfl⟩
      · exact hrecorded key value hkey
  | @forget t u _ hdelete ih =>
      obtain ⟨hfit, hpends, hrecorded⟩ := ih
      have hedit : t.edit (.delete (Entry.keyOf relpath)) = .ok u := hdelete
      refine ⟨hfit.edit hedit, Site.pends_edit hpends hedit, fun key value hkey => ?_⟩
      obtain ⟨-, rfl⟩ := change_eq hdelete
      rw [Std.ExtTreeMap.getElem?_insert] at hkey
      split at hkey
      · cases hkey
      · exact hrecorded key value hkey
  | @blob t u content _ hchange ih =>
      obtain ⟨hfit, hpends, hrecorded⟩ := ih
      have hedit : ∃ e, t.edit e = .ok u := by
        cases content with
        | some c => exact ⟨.setBlob relpath c, hchange⟩
        | none => exact ⟨.deleteBlob relpath, hchange⟩
      obtain ⟨e, hedit⟩ := hedit
      refine ⟨hfit.edit hedit, Site.pends_edit hpends hedit, ?_⟩
      obtain ⟨-, -, rfl⟩ := changeBlob_eq hchange
      exact hrecorded

/-- Who begins on the index that a transaction leaves finds no entry that
the transaction did not find. -/
theorem load_landed {after : Store} {n : UInt64} {writable : Bool} {algo : Digest.Algo} {e : Entry}
    (hrecorded : tx.Recorded) (hview : tx.view = some store.index)
    (hload : Entry.load (Site.fresh after n writable) after algo relpath = .ok (some e))
    (hindex : after.index = tx.overlay store.index) :
    Entry.load tx store algo relpath = .ok (some e) := by
  have hobserved : (Site.fresh after n writable).observed after = tx.overlay store.index := hindex
  have hclean : (Site.fresh after n writable).records[Entry.keyOf relpath]? = none := by
    simp [Site.fresh]
  unfold Entry.load Transaction.get at hload ⊢
  rw [hclean, hobserved, getElem?_overlay] at hload
  rw [observed_eq hview]
  cases hpending : tx.records[Entry.keyOf relpath]? with
  | none =>
      rw [hpending] at hload
      exact hload
  | some pending =>
      rw [hpending] at hload
      cases pending with
      | none => cases hload
      | some value =>
          obtain ⟨r, rfl⟩ := hrecorded _ _ hpending
          dsimp only [Option.map_some] at hload ⊢
          unfold readRecord Except.map at hload
          cases hread : Json.read r.toJson.compact with
          | error fault => rw [hread] at hload; cases hload
          | ok v =>
              rw [hread] at hload
              dsimp only at hload
              unfold Entry.readRecord at hload ⊢
              cases hof : FileRecord.ofJson? v with
              | none => rw [hof] at hload; cases hload
              | some r' =>
                  rw [hof] at hload
                  obtain rfl := FileRecord.eq_of_read hread hof
                  rw [r'.ofJson?_toJson]
                  exact hload

/-- Nor does it see anything declared that the transaction did not see. -/
theorem declares_landed {after : Store} {n : UInt64} {writable : Bool} {spec : HashSpec}
    (hrecorded : tx.Recorded) (hview : tx.view = some store.index)
    (h : Entry.Declares (Site.fresh after n writable) after relpath spec)
    (hindex : after.index = tx.overlay store.index) : Entry.Declares tx store relpath spec := by
  obtain ⟨algo, e, hload, hhash⟩ := h
  exact ⟨algo, e, load_landed hrecorded hview hload hindex, hhash⟩

end Transaction

namespace Site

/-- What can be asked of a transaction, or to begin one, where changes are
made through handles only. -/
inductive Demand where
  | use (op : Entry.Op)
  /-- Anything but an edit. -/
  | manage (a : Action)

/-- The site after a demand, if it is possible. -/
def perform (algo : Digest.Algo) (s : Site) (who : Nat) : Demand → Option Site
  | .use op =>
      (s.opened who).map fun tx => s.settle s.store who (some (op.apply algo s.store tx))
  | .manage (.edit _) => none
  | .manage a => (s.act who a).map (·.1)

/-- Transactions that are open on a site, or would begin on it. -/
def Views (s : Site) (v : Transaction) : Prop :=
  (∃ i, s.opened i = some v) ∨ ∃ writable, start s.store writable = .ok v

/-- Whatever a transaction sees has the digest that it sees declared. -/
def Verified (s : Site) : Prop :=
  ∀ v, s.Views v → ∀ relpath, Entry.Trusts v s.store relpath

/-- A commit, from one site to another, puts content only where it has the
digest that transactions see declared. -/
def PutsTrusted (tx : Transaction) (s t : Site) : Prop :=
  ∀ v, t.Views v → ∀ relpath spec content, v.blobs[relpath]? = none →
    (v.observed t.store).blobs.contains relpath = true →
    Entry.Declares v t.store relpath spec →
    tx.puts s.store (Store.place relpath) = some (.file content) → spec.accepts content = true

/-- A demand that was met. -/
structure Turn where
  before : Site
  who : Nat
  demand : Demand
  after : Site

/-- The demands that are met, one after the other; those that are not
possible are passed over. -/
def turns (algo : Digest.Algo) (s : Site) : List (Nat × Demand) → List Turn
  | [] => []
  | (who, d) :: rest =>
      match s.perform algo who d with
      | some t => ⟨s, who, d, t⟩ :: t.turns algo rest
      | none => s.turns algo rest

/-- Neither an operation nor a commit brings a digest and content together
that do not match. -/
def Turn.Harmless (algo : Digest.Algo) (turn : Turn) : Prop :=
  match turn.demand with
  | .use op =>
      ∀ tx, turn.before.opened turn.who = some tx → op.Sound algo turn.before.store tx
  | .manage a => ∀ tx ∈ turn.before.lands turn.who a, PutsTrusted tx turn.before turn.after

variable {algo : Digest.Algo} {s t : Site} {who : Nat} {tx v : Transaction}

/-- What holds at every site that demands lead to. -/
structure Kept (s : Site) : Prop where
  sane : s.Sane
  shelved : s.Shelved
  recorded : ∀ i tx, s.opened i = some tx → tx.Recorded

theorem kept_empty (root cwd : String) : (empty root cwd).Kept :=
  ⟨sane_empty root cwd, shelved_empty root cwd, fun _ _ h => nomatch h⟩

theorem recorded_fresh (store : Store) (n : UInt64) (writable : Bool) :
    (fresh store n writable).Recorded := by
  intro key value h
  simp [fresh] at h

theorem recorded_settle {store : Store} {tx : Option Transaction}
    (hs : ∀ i u, s.opened i = some u → u.Recorded) (htx : ∀ u, tx = some u → u.Recorded) :
    ∀ i u, (s.settle store who tx).opened i = some u → u.Recorded := by
  intro i u hi
  by_cases hwho : i = who
  · subst hwho
    rw [settle_opened_self] at hi
    exact htx u hi
  · rw [settle_opened_of_ne _ hwho] at hi
    exact hs i u hi

/-- What is done through handles. -/
theorem Kept.use (hs : s.Kept) (hopen : s.opened who = some tx) {relpath : String}
    {u : Transaction} (h : Entry.Handled relpath tx u) :
    (s.settle s.store who (some u)).Kept := by
  obtain ⟨hfit, hpends, hrecorded⟩ := keeps_of_handled h (hs.sane.fit who tx hopen)
    (hs.shelved.pends who tx hopen) (hs.recorded who tx hopen)
  have hsame := h.elsewhere.same
  refine ⟨hs.sane.settle hs.sane.serial (.inl rfl) ?_ ?_, hs.shelved.settle_same ?_ ?_,
    recorded_settle hs.recorded ?_⟩
  · intro u hu
    cases hu
    exact hfit
  · intro u hu hw
    cases hu
    rw [hsame] at hw
    exact .inr ((hs.sane.writer who tx hopen).1 hw)
  · intro u hu
    cases hu
    exact hpends
  · intro u view hu hview
    cases hu
    rw [hsame] at hview
    exact hs.shelved.views who tx view hopen hview
  · intro u hu
    cases hu
    exact hrecorded

/-- A step that is no edit. -/
theorem Kept.move {a : Action} {answer : Except StoreError UInt64} (hs : s.Kept)
    (h : Move s who a answer t) (ha : ∀ e, a ≠ .edit e) : t.Kept := by
  refine ⟨h.sane hs.sane, h.shelved hs.shelved, ?_⟩
  have hfresh : ∀ {store after n writable}, ∀ i u,
      (s.settle store who (some (fresh after n writable))).opened i = some u → u.Recorded := by
    intro store after n writable
    apply recorded_settle hs.recorded
    intro u hu
    cases hu
    exact recorded_fresh _ _ _
  cases h with
  | begin => exact hfresh
  | edit => exact absurd rfl (ha _)
  | editRefused => exact absurd rfl (ha _)
  | close => exact recorded_settle hs.recorded nofun
  | commit => exact recorded_settle hs.recorded nofun
  | commitRefused => exact recorded_settle hs.recorded nofun
  | renew => exact hfresh
  | recommit => exact hfresh
  | @recommitRefused tx after e hopen hwrites hchanges hrefused =>
      apply recorded_settle hs.recorded
      intro u hu
      cases hu
      exact hs.recorded who tx hopen

-- ===================================================== who views a site

theorem views_fresh {n : UInt64} (h : s.store.index.serial = some (toString n)) (writable : Bool) :
    s.Views (fresh s.store n writable) :=
  .inr ⟨writable, start_eq h writable⟩

theorem Views.cases (hs : s.Sane) (h : s.Views v) :
    (∃ i, s.opened i = some v)
      ∨ ∃ n writable, s.store.index.serial = some (toString n) ∧ v = fresh s.store n writable := by
  rcases h with h | ⟨writable, h⟩
  · exact .inl h
  · obtain ⟨n, hserial⟩ := hs.serial
    rw [start_eq hserial] at h
    cases h
    exact .inr ⟨n, writable, hserial, rfl⟩

/-- Who views a site once one transaction has changed: that one, one that
has been open, or one that begins now. -/
theorem views_settle {store : Store} {u : Option Transaction} (hs : (s.settle store who u).Sane)
    (h : (s.settle store who u).Views v) :
    u = some v ∨ (∃ i, s.opened i = some v)
      ∨ ∃ n writable, store.index.serial = some (toString n) ∧ v = fresh store n writable := by
  rcases h.cases hs with ⟨i, hi⟩ | hfresh
  · by_cases hwho : i = who
    · subst hwho
      rw [settle_opened_self] at hi
      exact .inl hi
    · rw [settle_opened_of_ne _ hwho] at hi
      exact .inr (.inl ⟨i, hi⟩)
  · exact .inr (.inr hfresh)

/-- If the index stays as it was, and the one that has changed viewed it
before, or begins on it, so did all. -/
theorem views_of_settle {store : Store} {u : Option Transaction}
    (hs : (s.settle store who u).Sane) (hindex : store.index = s.store.index)
    (hu : ∀ w, u = some w → s.Views w) (h : (s.settle store who u).Views v) : s.Views v := by
  rcases views_settle hs h with heq | hopen | ⟨n, writable, hserial, rfl⟩
  · exact hu v heq
  · exact .inl hopen
  · rw [hindex] at hserial
    rw [fresh_congr hindex]
    exact views_fresh hserial writable

/-- A transaction that views a site has a view of the index, on which
relpaths stand. -/
theorem Kept.view (hs : s.Kept) (h : s.Views v) :
    ∃ view, v.view = some view ∧ AllStand s.store view := by
  rcases h.cases hs.sane with ⟨i, hi⟩ | ⟨n, writable, -, rfl⟩
  · obtain ⟨view, hview⟩ := Option.isSome_iff_exists.1 (hs.sane.fit i v hi).live
    exact ⟨view, hview, hs.shelved.views i v view hi hview⟩
  · exact ⟨s.store.index, rfl, hs.shelved.current⟩

/-- The content that a transaction sees of what it has not changed. -/
theorem Kept.getBlob_iff (hs : s.Kept) (h : s.Views v) {relpath : String}
    (hpending : v.blobs[relpath]? = none) (content : Bytes) :
    v.getBlob s.store relpath = .ok (some content)
      ↔ (v.observed s.store).blobs.contains relpath = true
        ∧ s.store.files.node? (Store.place relpath) = some (.file content) := by
  obtain ⟨view, hview, hstand⟩ := hs.view h
  rw [getBlob_eq_iff hview hpending hs.shelved.closed (hstand relpath), observed_eq hview]

-- ===================================================== what commits change

/-- What a step that is no edit comes to for those who view the site. -/
inductive Shift (s : Site) (who : Nat) (a : Action) (t : Site) : Prop
  /-- All that they see stays as it was. -/
  | idle (hstore : t.store = s.store) (hviews : ∀ v, t.Views v → s.Views v)
      (hclean : ∀ tx ∈ s.lands who a, tx.hasChanges = false)
  /-- A transaction has committed, or was refused to. Who did not view the
  site before has begun after that. -/
  | commit {tx : Transaction} (hopen : s.opened who = some tx) (hwrites : tx.writable = true)
      (hlands : s.lands who a = [tx])
      (hends : (∃ after, tx.Placed s.store after ∧ t.store = landed tx after s.store.index)
        ∨ ∃ e, tx.Refused s.store t.store e)
      (hviews : ∀ v, t.Views v → s.Views v
        ∨ ∃ after n writable, tx.Placed s.store after
          ∧ t.store = landed tx after s.store.index ∧ v = fresh t.store n writable)

/-- Every such step is a shift. -/
theorem Move.shift {a : Action} {answer : Except StoreError UInt64} (hs : s.Kept)
    (h : Move s who a answer t) (ha : ∀ e, a ≠ .edit e) : Shift s who a t := by
  have ht := h.sane hs.sane
  cases h with
  | edit => exact absurd rfl (ha _)
  | editRefused => exact absurd rfl (ha _)
  | begin hfree hlock hserial =>
      refine .idle rfl (fun v hv => views_of_settle ht rfl ?_ hv) nofun
      intro u hu
      cases hu
      exact views_fresh hserial _
  | @close tx a hopen hclose =>
      refine .idle rfl (fun v hv => views_of_settle ht rfl nofun hv) ?_
      rcases hclose with rfl | rfl | ⟨rfl, hchanges⟩
      · exact nofun
      · exact nofun
      · simpa [lands, hopen] using hchanges
  | @renew tx writable n hopen hlock hchanges hserial =>
      refine .idle rfl (fun v hv => views_of_settle ht rfl ?_ hv) ?_
      · intro u hu
        cases hu
        exact views_fresh hserial _
      · cases writable with
        | false => exact nofun
        | true => simpa [lands, hopen] using hchanges rfl
  | @commit tx after hopen hwrites hchanges hplaced =>
      refine .commit hopen hwrites (by simp [lands, hopen]) (.inl ⟨after, hplaced, rfl⟩) ?_
      intro v hv
      rcases views_settle ht hv with heq | hbefore | ⟨n, writable, hserial, rfl⟩
      · cases heq
      · exact .inl (.inl hbefore)
      · exact .inr ⟨after, n, writable, hplaced, rfl, rfl⟩
  | @recommit tx after hopen hwrites hchanges hplaced =>
      refine .commit hopen hwrites (by simp [lands, hopen]) (.inl ⟨after, hplaced, rfl⟩) ?_
      intro v hv
      rcases views_settle ht hv with heq | hbefore | ⟨n, writable, hserial, rfl⟩
      · cases heq
        exact .inr ⟨after, _, _, hplaced, rfl, rfl⟩
      · exact .inl (.inl hbefore)
      · exact .inr ⟨after, n, writable, hplaced, rfl, rfl⟩
  | @commitRefused tx after e hopen hwrites hchanges hrefused =>
      refine .commit hopen hwrites (by simp [lands, hopen]) (.inr ⟨e, hrefused⟩) fun v hv => .inl ?_
      exact views_of_settle ht (refused_index hrefused) nofun hv
  | @recommitRefused tx after e hopen hwrites hchanges hrefused =>
      refine .commit hopen hwrites (by simp [lands, hopen]) (.inr ⟨e, hrefused⟩) fun v hv => .inl ?_
      exact views_of_settle ht (refused_index hrefused)
        (by rintro _ ⟨⟩; exact .inl ⟨who, hopen⟩) hv

-- ===================================================== what commits verify

/-- What `v` sees after a commit by `tx`, `u` saw before, unless it is what
the commit has put there. -/
structure Heir (tx : Transaction) (s t : Site) (u v : Transaction) : Prop where
  declares : ∀ relpath spec, Entry.Declares v t.store relpath spec →
    Entry.Declares u s.store relpath spec
  content : ∀ relpath content, v.getBlob t.store relpath = .ok (some content) →
    u.getBlob s.store relpath = .ok (some content)
      ∨ (v.blobs[relpath]? = none ∧ (v.observed t.store).blobs.contains relpath = true
        ∧ tx.puts s.store (Store.place relpath) = some (.file content))

/-- Who viewed the site before sees the same records. -/
theorem heir_self (hs : s.Kept) (ht : t.Kept) (hleft : tx.Left s.store t.store)
    (h : s.Views v) (h' : t.Views v) : Heir tx s t v v := by
  obtain ⟨view, hview, -⟩ := hs.view h
  have hobserved : v.observed t.store = v.observed s.store := by
    rw [observed_eq hview, observed_eq hview]
  refine ⟨fun relpath spec hdeclares => ?_, fun relpath content hcontent => ?_⟩
  · unfold Entry.Declares Entry.load at hdeclares ⊢
    rwa [(get_of_live (by rw [hview]; rfl) s.store t.store).1]
  · cases hpending : v.blobs[relpath]? with
    | some pending =>
        left
        unfold Transaction.getBlob at hcontent ⊢
        rw [hpending] at hcontent ⊢
        exact hcontent
    | none =>
        obtain ⟨hmem, hnode⟩ := (ht.getBlob_iff h' hpending content).1 hcontent
        rcases hleft.kept _ _ hnode with hputs | ⟨-, hbefore⟩
        · exact .inr ⟨rfl, hmem, hputs⟩
        · rw [hobserved] at hmem
          exact .inl ((hs.getBlob_iff h hpending content).2 ⟨hmem, hbefore⟩)

/-- Who begins once a transaction has landed sees what it saw. -/
theorem heir_landed {after : Store} {n : UInt64} {writable : Bool} (hs : s.Kept) (ht : t.Kept)
    (hopen : s.opened who = some tx) (hwrites : tx.writable = true)
    (hplaced : tx.Placed s.store after) (hstore : t.store = landed tx after s.store.index)
    (h : t.Views (fresh t.store n writable)) :
    Heir tx s t tx (fresh t.store n writable) := by
  have hview := ((hs.sane.fit who tx hopen).current hwrites).1
  have hpends := hs.shelved.pends who tx hopen
  have hleft := hplaced.left hpends hs.shelved.closed
  have hindex : t.store.index = tx.overlay s.store.index := by rw [hstore]; rfl
  have hall := (hplaced.laid hpends).2
  refine ⟨fun relpath spec hdeclares => ?_, fun relpath content hcontent => ?_⟩
  · exact declares_landed (hs.recorded who tx hopen) hview hdeclares hindex
  · have hclean : (fresh t.store n writable).blobs[relpath]? = none := by simp [fresh]
    obtain ⟨hmem, hnode⟩ := (ht.getBlob_iff h hclean content).1 hcontent
    have hobserved : (fresh t.store n writable).observed t.store = t.store.index := rfl
    rw [← hstore] at hleft
    rcases hleft.kept _ _ hnode with hputs | ⟨hnone, hbefore⟩
    · exact .inr ⟨hclean, hmem, hputs⟩
    · -- the place is none that the transaction has put anything at
      apply Or.inl
      rw [hobserved, hindex, contains_overlay] at hmem
      cases hpending : tx.blobs[relpath]? with
      | some pending =>
          rw [hpending] at hmem
          cases pending with
          | none => cases hmem
          | some c =>
              have hlaid := mem_staged.2 hpending
              rw [← hall] at hlaid
              exact (hnone _ hlaid rfl).elim
      | none =>
          rw [hpending] at hmem
          refine (hs.getBlob_iff (.inl ⟨who, hopen⟩) hpending content).2 ⟨?_, hbefore⟩
          rw [observed_eq hview]
          exact hmem

/-- If all have been there before, a commit leads from a verified site to a
verified one just if what it puts can be trusted. -/
theorem verified_iff_putsTrusted (ht : t.Kept) (hverified : s.Verified)
    (hleft : tx.Left s.store t.store)
    (hheirs : ∀ v, t.Views v → ∃ u, s.Views u ∧ Heir tx s t u v) :
    t.Verified ↔ PutsTrusted tx s t := by
  constructor
  · intro h v hv relpath spec content hpending hmem hdeclares hputs
    exact h v hv relpath spec content hdeclares
      ((ht.getBlob_iff hv hpending content).2 ⟨hmem, hleft.put _ _ hputs⟩)
  · intro h v hv relpath spec content hdeclares hcontent
    obtain ⟨u, hu, hheir⟩ := hheirs v hv
    rcases hheir.content relpath content hcontent with hbefore | ⟨hpending, hmem, hputs⟩
    · exact hverified u hu relpath spec content (hheir.declares relpath spec hdeclares) hbefore
    · exact h v hv relpath spec content hpending hmem hdeclares hputs

/-- A step that is no edit leads from a verified site to a verified one just
if what it commits, if anything, can be trusted. -/
theorem Move.verified_iff {a : Action} {answer : Except StoreError UInt64} (hs : s.Kept)
    (hverified : s.Verified) (h : Move s who a answer t) (ha : ∀ e, a ≠ .edit e) :
    t.Verified ↔ ∀ tx ∈ s.lands who a, PutsTrusted tx s t := by
  have ht := hs.move h ha
  cases h.shift hs ha with
  | idle hstore hviews hclean =>
      refine iff_of_true (fun v hv relpath => ?_)
        fun tx hmem v _ relpath spec content _ _ _ hputs => ?_
      · rw [hstore]
        exact hverified v (hviews v hv) relpath
      · rw [puts_of_clean (hclean tx hmem)] at hputs
        cases hputs
  | @commit tx hopen hwrites hlands hends hviews =>
      have hpends := hs.shelved.pends who tx hopen
      have hleft : tx.Left s.store t.store := by
        rcases hends with ⟨after, hplaced, hstore⟩ | ⟨e, hrefused⟩
        · rw [hstore]
          exact hplaced.left hpends hs.shelved.closed
        · exact hrefused.left hpends
      rw [hlands, verified_iff_putsTrusted ht hverified hleft]
      · simp
      · intro v hv
        rcases hviews v hv with hbefore | ⟨after, n, writable, hplaced, hstore, rfl⟩
        · exact ⟨v, hbefore, heir_self hs ht hleft hbefore hv⟩
        · exact ⟨tx, .inl ⟨who, hopen⟩, heir_landed hs ht hopen hwrites hplaced hstore hv⟩

-- ===================================================== runs

/-- An operation leads from a verified site to a verified one just if it is
sound. -/
theorem use_verified_iff (hs : s.Kept) (hverified : s.Verified) (hopen : s.opened who = some tx)
    (op : Entry.Op) (algo : Digest.Algo) :
    (s.settle s.store who (some (op.apply algo s.store tx))).Kept
      ∧ ((s.settle s.store who (some (op.apply algo s.store tx))).Verified
        ↔ op.Sound algo s.store tx) := by
  have htrusts := hverified tx (.inl ⟨who, hopen⟩)
  obtain ⟨relpath, hhandled, -⟩ := op.spec algo htrusts
  have ht := hs.use hopen hhandled
  refine ⟨ht, ?_⟩
  rw [← op.trusts_iff algo htrusts]
  constructor
  · intro h
    exact h _ (.inl ⟨who, settle_opened_self _⟩)
  · intro h v hv
    rcases views_settle ht.sane hv with heq | hbefore | ⟨n, writable, hserial, rfl⟩
    · cases heq
      exact h
    · exact hverified v (.inl hbefore)
    · exact hverified _ (views_fresh hserial writable)

/-- A demand is met by an operation of a transaction that is open, or by a
step that is no edit. -/
theorem perform_cases (hs : s.Sane) {d : Demand} (h : s.perform algo who d = some t) :
    (∃ op tx, d = .use op ∧ s.opened who = some tx
        ∧ t = s.settle s.store who (some (op.apply algo s.store tx)))
      ∨ ∃ a result, d = .manage a ∧ (∀ e, a ≠ .edit e) ∧ Move s who a result t := by
  cases d with
  | use op =>
      obtain ⟨tx, hopen, rfl⟩ := Option.map_eq_some_iff.1 h
      exact .inl ⟨op, tx, rfl, hopen, rfl⟩
  | manage a =>
      have hact : (∀ e, a ≠ .edit e) ∧ (s.act who a).map (·.1) = some t := by
        cases a with
        | edit e => cases h
        | begin | commit | rollback | drop | restart => exact ⟨nofun, h⟩
      obtain ⟨⟨t', result⟩, hstep, heq⟩ := Option.map_eq_some_iff.1 hact.2
      cases heq
      exact .inr ⟨a, result, rfl, hact.1, hs.move hstep⟩

/-- A demand that is met leads from a verified site to a verified one just
if it is harmless. -/
theorem perform_verified_iff (hs : s.Kept) (hverified : s.Verified) {d : Demand}
    (h : s.perform algo who d = some t) :
    t.Kept ∧ (t.Verified ↔ Turn.Harmless algo ⟨s, who, d, t⟩) := by
  rcases perform_cases hs.sane h with ⟨op, tx, rfl, hopen, rfl⟩ | ⟨a, result, rfl, ha, hmove⟩
  · obtain ⟨ht, hiff⟩ := use_verified_iff hs hverified hopen op algo
    refine ⟨ht, hiff.trans ?_⟩
    unfold Turn.Harmless
    dsimp only
    rw [hopen]
    simp
  · exact ⟨hs.move hmove ha, hmove.verified_iff hs hverified ha⟩

theorem verified_empty (root cwd : String) : (empty root cwd).Verified := by
  intro v hv relpath spec content hdeclares
  obtain ⟨algo, e, hload, -⟩ := hdeclares
  rcases hv.cases (sane_empty root cwd) with ⟨i, hi⟩ | ⟨n, writable, -, rfl⟩
  · cases hi
  · have hnone : (fresh (empty root cwd).store n writable).get (empty root cwd).store
        (Entry.keyOf relpath) = .ok none := by
      unfold Transaction.get observed
      simp [fresh, empty]
    unfold Entry.load at hload
    rw [hnone] at hload
    cases hload

/-- Turns start from what the first site of a run has, if each of them keeps
it that is as turns of the run are. -/
theorem turns_induct {P : Site → Prop} {Q : Turn → Prop} {demands : List (Nat × Demand)}
    (hstep : ∀ s who d t, P s → s.perform algo who d = some t → Q ⟨s, who, d, t⟩ → P t)
    (hs : P s) (h : ∀ turn ∈ s.turns algo demands, Q turn) :
    ∀ turn ∈ s.turns algo demands,
      P turn.before ∧ turn.before.perform algo turn.who turn.demand = some turn.after := by
  induction demands generalizing s with
  | nil => exact List.forall_mem_nil _
  | cons demand rest ih =>
      obtain ⟨who, d⟩ := demand
      unfold turns at h ⊢
      split at h
      · next t hperform =>
        obtain ⟨hfirst, hrest⟩ := List.forall_mem_cons.1 h
        exact List.forall_mem_cons.2
          ⟨⟨hs, hperform⟩, ih (hstep s who d t hs hperform hfirst) hrest⟩
      · exact ih hs h

/-- If turns of a kind keep a site verified, a run of such turns is verified
throughout. -/
theorem turns_verified {Q : Turn → Prop} {demands : List (Nat × Demand)}
    (hstep : ∀ s who d t, s.Kept → s.Verified → s.perform algo who d = some t →
      Q ⟨s, who, d, t⟩ → t.Verified)
    (hs : s.Kept) (hverified : s.Verified) (h : ∀ turn ∈ s.turns algo demands, Q turn) :
    ∀ turn ∈ s.turns algo demands, turn.after.Verified ∧ turn.Harmless algo := by
  intro turn hmem
  obtain ⟨⟨hkept, hbefore⟩, hperform⟩ := turns_induct (P := fun s => s.Kept ∧ s.Verified)
    (fun s who d t hs hperform hturn => ⟨(perform_verified_iff hs.1 hs.2 hperform).1,
      hstep s who d t hs.1 hs.2 hperform hturn⟩) ⟨hs, hverified⟩ h turn hmem
  have hafter := hstep _ _ _ _ hkept hbefore hperform (h turn hmem)
  exact ⟨hafter, (perform_verified_iff hkept hbefore hperform).2.1 hafter⟩

/-- Sites are verified throughout a run just if each of its steps is
harmless, up to the first that is not. -/
theorem turns_verified_iff (hs : s.Kept) (hverified : s.Verified) (demands : List (Nat × Demand)) :
    (∀ turn ∈ s.turns algo demands, turn.after.Verified)
      ↔ ∀ turn ∈ s.turns algo demands, turn.Harmless algo := by
  constructor
  · intro h turn hmem
    exact (turns_verified (fun _ _ _ _ _ _ _ hafter => hafter) hs hverified h turn hmem).2
  · intro h turn hmem
    refine (turns_verified (fun s who d t hs hverified hperform hharmless => ?_) hs hverified h
      turn hmem).1
    exact (perform_verified_iff hs hverified hperform).2.2 hharmless

/-- In a run on a store that is empty at first, all that transactions see
always has the digest that they see declared, just if no link declares
another digest for content that is there, and no commit puts content where
a transaction sees another digest declared. -/
theorem verified_iff_harmless (algo : Digest.Algo) (root cwd : String)
    (demands : List (Nat × Demand)) :
    (∀ turn ∈ (empty root cwd).turns algo demands, turn.after.Verified)
      ↔ ∀ turn ∈ (empty root cwd).turns algo demands, turn.Harmless algo :=
  turns_verified_iff (kept_empty root cwd) (verified_empty root cwd) demands

end Site

end Depot
