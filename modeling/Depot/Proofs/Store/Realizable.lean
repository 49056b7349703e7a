/-
Commits whose outcome is realizable: the relpaths that are committed
afterwards are made of plain names, and none is that of a directory of
another. Such a commit succeeds just if there is room for each blob that
it sets (`commit_ok_iff_room`). Nothing but blobs that were set in the run
takes room; but directories stay where blobs are deleted
(`commit_refused_for_left_dir`), and a commit removes the files that it
deletes only when those that it sets are in their places.
-/
import Depot.Proofs.Store.Room

namespace Depot

open Files Files.Tree Text

namespace Transaction

variable {tx : Transaction} {store after : Store} {relpath : String}

-- ===================================================== realizable blobs

/-- A blob that is set is among those that are committed afterwards. -/
theorem contains_of_staged {blob : String × Bytes} (hblob : blob ∈ tx.staged) (index : Index) :
    (tx.overlay index).blobs.contains blob.1 = true := by
  rw [contains_overlay, mem_staged.1 hblob]
  rfl

/-- Relpaths at which one disk can have files all at once: they are made of
names that are not too long, and none is that of a directory of another. -/
structure Realizable (blobs : Std.ExtTreeSet String) : Prop where
  named : ∀ relpath, blobs.contains relpath = true → ∀ piece ∈ Store.pieces relpath,
    Relpath.isPlainName piece = true ∧ isTooLong piece = false
  apart : ∀ a b, blobs.contains a = true → blobs.contains b = true → a ≠ b →
    ¬Store.pieces a <+: Store.pieces b

/-- Whether relpaths are realizable is seen by going through them. -/
theorem realizable_iff {blobs : Std.ExtTreeSet String} : Realizable blobs
    ↔ (∀ relpath ∈ blobs.toList, ∀ piece ∈ Store.pieces relpath,
        Relpath.isPlainName piece = true ∧ isTooLong piece = false)
      ∧ ∀ a ∈ blobs.toList, ∀ b ∈ blobs.toList, a ≠ b → ¬Store.pieces a <+: Store.pieces b := by
  have hmem : ∀ {relpath : String}, relpath ∈ blobs.toList ↔ blobs.contains relpath = true :=
    Std.ExtTreeSet.mem_toList.trans Std.ExtTreeSet.mem_iff_contains
  constructor
  · intro h
    exact ⟨fun relpath hrelpath => h.named relpath (hmem.1 hrelpath),
      fun a ha b hb => h.apart a b (hmem.1 ha) (hmem.1 hb)⟩
  · intro h
    exact ⟨fun relpath hrelpath => h.1 relpath (hmem.2 hrelpath),
      fun a b ha hb => h.2 a (hmem.2 ha) b (hmem.2 hb)⟩

namespace Realizable

variable {blobs : Std.ExtTreeSet String}

theorem place (h : Realizable blobs) (hmem : blobs.contains relpath = true) :
    Store.place relpath = Store.pieces relpath :=
  List.filter_eq_self.2 fun piece hpiece => by
    rw [Origin.isIdle_of_plain (h.named relpath hmem piece hpiece).1]
    rfl

theorem file (h : Realizable blobs) (hmem : blobs.contains relpath = true) :
    isFilePath (Store.pieces relpath) = true := by
  rcases (Store.pieces relpath).eq_nil_or_concat with hnil | ⟨above, name, hpieces⟩
  · exact absurd hnil (split_ne_nil _ _)
  · have hname := (h.named relpath hmem name (by simp [hpieces])).1
    exact isFilePath_iff.2
      ⟨above, name, by rw [hpieces, List.concat_eq_append], Origin.isIdle_of_plain hname⟩

/-- None of the relpaths is to lie above another, nor above itself. -/
theorem not_above (h : Realizable blobs) {a b : String} (ha : blobs.contains a = true)
    (hb : blobs.contains b = true) : ¬Store.place a <+: (Store.place b).dropLast := by
  intro habove
  by_cases heq : a = b
  · have hlen := habove.length_le
    have hpos : 0 < (Store.place b).length := List.length_pos_iff.2 (names_ne_nil (h.file hb))
    rw [heq, List.length_dropLast] at hlen
    omega
  · refine h.apart a b ha hb heq ?_
    rw [← h.place ha, ← h.place hb]
    exact habove.trans (List.dropLast_prefix _)

/-- So none of the blobs that a transaction sets is. -/
theorem isAbove {index : Index} (h : Realizable (tx.overlay index).blobs) {blob : String × Bytes}
    (hblob : blob ∈ tx.staged) : isAbove tx.staged (Store.place blob.1) = false := by
  unfold Transaction.isAbove
  rw [List.any_eq_false]
  intro other hother habove
  exact h.not_above (contains_of_staged hblob index) (contains_of_staged hother index)
    (of_decide_eq_true habove)

/-- Where the outcome is realizable, there is nothing but room to ask for. -/
theorem placed_iff {index : Index} (h : Realizable (tx.overlay index).blobs) (hpends : tx.Pends)
    (hclosed : store.files.Closed) :
    (∃ after, tx.Placed store after) ↔ ∀ blob ∈ tx.staged, Room store blob.1 := by
  rw [Transaction.placed_iff hpends hclosed]
  constructor
  · intro hadmits blob hblob
    exact (hadmits blob hblob).1.toRoom
  · intro hroom blob hblob
    have hmem := contains_of_staged hblob index
    exact ⟨⟨hroom blob hblob, h.file hmem, fun piece hpiece =>
      (h.named blob.1 hmem piece hpiece).2⟩, h.isAbove hblob⟩

end Realizable

-- ===================================================== what commits add

/-- What moving blobs makes of a place: it is as before, or has one of
them. -/
theorem foldl_shelve_cases (blobs : List (String × Bytes)) (q : Place) (node : Option Node) :
    blobs.foldl (shelve q) node = node
      ∨ ∃ blob ∈ blobs, Store.place blob.1 = q
        ∧ blobs.foldl (shelve q) node = some (.file blob.2) := by
  induction blobs using List.reverseRecOn with
  | nil => exact .inl rfl
  | append_singleton blobs last ih =>
      rw [List.foldl_append, List.foldl_cons, List.foldl_nil]
      unfold shelve
      by_cases hlast : Store.place last.1 = q
      · rw [if_pos hlast]
        exact .inr ⟨last, by simp, hlast, rfl⟩
      · rw [if_neg hlast]
        refine ih.imp id fun hblob => ?_
        obtain ⟨blob, hmem, hplace, heq⟩ := hblob
        exact ⟨blob, by simp [hmem], hplace, heq⟩

/-- The files after a commit, refused or not, are those before and some of
its blobs, and the directories those before and some above its blobs. -/
structure Adds (tx : Transaction) (store after : Store) : Prop where
  dir : ∀ q, after.files.node? q = some .dir →
    store.files.node? q = some .dir ∨ isAbove tx.staged q = true
  file : ∀ q content, after.files.node? q = some (.file content) →
    store.files.node? q = some (.file content)
      ∨ ∃ blob ∈ tx.staged, Store.place blob.1 = q ∧ blob.2 = content

/-- What is left by a sweep was there. -/
theorem of_swept {emptied : Bool} {node : Option Node} {left : Node}
    (h : swept emptied node = some left) : node = some left := by
  cases node with
  | none => cases h
  | some node => cases node with
    | dir => exact h
    | file content => cases emptied with
      | true => cases h
      | false => exact h

theorem adds_of_swept {moved : List (String × Bytes)} (emptied makes : Place → Bool)
    (hmoved : ∀ blob ∈ moved, blob ∈ tx.staged)
    (hmakes : ∀ q, makes q = true → isAbove tx.staged q = true)
    (h : ∀ q, after.files.node? q = swept (emptied q)
      (moved.foldl (shelve q) (if makes q then some .dir else store.files.node? q))) :
    tx.Adds store after := by
  have hcases : ∀ q node, after.files.node? q = some node →
      (node = .dir ∧ isAbove tx.staged q = true) ∨ store.files.node? q = some node
        ∨ ∃ blob ∈ tx.staged, Store.place blob.1 = q ∧ node = .file blob.2 := by
    intro q node hnode
    rw [h] at hnode
    have hbefore := of_swept hnode
    rcases foldl_shelve_cases moved q (if makes q then some .dir else store.files.node? q)
      with heq | ⟨blob, hmem, hplace, heq⟩
    · rw [heq] at hbefore
      split at hbefore
      · next hmade =>
        cases hbefore
        exact .inl ⟨rfl, hmakes q hmade⟩
      · exact .inr (.inl hbefore)
    · rw [heq] at hbefore
      cases hbefore
      exact .inr (.inr ⟨blob, hmoved blob hmem, hplace, rfl⟩)
  constructor
  · intro q hdir
    rcases hcases q _ hdir with ⟨-, habove⟩ | hsame | ⟨_, _, _, heq⟩
    · exact .inr habove
    · exact .inl hsame
    · cases heq
  · intro q content hfile
    rcases hcases q _ hfile with ⟨heq, -⟩ | hsame | ⟨blob, hmem, hplace, heq⟩
    · cases heq
    · exact .inl hsame
    · cases heq
      exact .inr ⟨blob, hmem, hplace, rfl⟩

theorem Refused.adds {e : StoreError} (h : tx.Refused store after e) (hpends : tx.Pends) :
    tx.Adds store after := by
  obtain ⟨hlaid, hprefix, -⟩ := h.laid hpends
  refine adds_of_swept (fun _ => false) (tx.makes store) (fun blob hmem => hprefix.mem hmem)
    (fun q hmakes => (makes_spec hpends hmakes).2) fun q => ?_
  rw [hlaid.node, swept_false]
  rfl

theorem Placed.adds (h : tx.Placed store after) (hpends : tx.Pends)
    (hclosed : store.files.Closed) : tx.Adds store (Site.landed tx after store.index) :=
  adds_of_swept (fun q => tx.removals.any (empties store.filesRoot q)) (isAbove tx.staged)
    (fun _ hmem => hmem) (fun _ habove => habove) (Site.node?_landed h hpends hclosed)

end Transaction

namespace Site

open Transaction

variable {s t : Site} {who : Nat} {tx : Transaction} {events : List Event} {e : Event}

-- ===================================================== where files come from

/-- In a run a blob was set. -/
def WasSet (events : List Event) (relpath : String) (content : Bytes) : Prop :=
  ∃ e ∈ events, e.action = .edit (.setBlob relpath content)

theorem WasSet.append {relpath : String} {content : Bytes} (h : WasSet events relpath content)
    (later : List Event) : WasSet (events ++ later) relpath content := by
  obtain ⟨e, hmem, haction⟩ := h
  exact ⟨e, List.mem_append_left _ hmem, haction⟩

/-- All that lies on the disk lies there for blobs that were set. -/
structure Traced (events : List Event) (s : Site) : Prop where
  dir : ∀ q, s.store.files.node? q = some .dir → q ≠ [] →
    ∃ relpath content, WasSet events relpath content ∧ q <+: (Store.place relpath).dropLast
  file : ∀ q content, s.store.files.node? q = some (.file content) →
    ∃ relpath, WasSet events relpath content ∧ Store.place relpath = q
  pending : ∀ i tx, s.opened i = some tx → ∀ relpath content,
    tx.blobs[relpath]? = some (some content) → WasSet events relpath content

theorem traced_empty (root cwd : String) : Traced [] (empty root cwd) where
  dir q h hne := by simp [empty, node?_of_ne hne] at h
  file q content h := by
    by_cases hne : q = []
    · subst hne
      simp at h
    · simp [empty, node?_of_ne hne] at h
  pending _ _ h := nomatch h

theorem Traced.append (h : Traced events s) (e : Event) : Traced (events ++ [e]) s where
  dir q hq hne := by
    obtain ⟨relpath, content, hset, hprefix⟩ := h.dir q hq hne
    exact ⟨relpath, content, hset.append _, hprefix⟩
  file q content hq := by
    obtain ⟨relpath, hset, hplace⟩ := h.file q content hq
    exact ⟨relpath, hset.append _, hplace⟩
  pending i tx hi relpath content hblob := (h.pending i tx hi relpath content hblob).append _

/-- Later events and more of what was set keep a site traced. -/
theorem Traced.settle (h : Traced events s) (e : Event) {store : Store} {tx : Option Transaction}
    (hdir : ∀ q, store.files.node? q = some .dir → s.store.files.node? q = some .dir
      ∨ ∃ relpath content, WasSet events relpath content ∧ q <+: (Store.place relpath).dropLast)
    (hfile : ∀ q content, store.files.node? q = some (.file content) →
      s.store.files.node? q = some (.file content)
        ∨ ∃ relpath, WasSet events relpath content ∧ Store.place relpath = q)
    (hpending : ∀ u, tx = some u → ∀ relpath content, u.blobs[relpath]? = some (some content) →
      WasSet (events ++ [e]) relpath content) :
    Traced (events ++ [e]) (s.settle store who tx) where
  dir q hq hne := by
    obtain ⟨relpath, content, hset, hprefix⟩ := (hdir q hq).elim (h.dir q · hne) id
    exact ⟨relpath, content, hset.append _, hprefix⟩
  file q content hq := by
    obtain ⟨relpath, hset, hplace⟩ := (hfile q content hq).elim (h.file q content) id
    exact ⟨relpath, hset.append _, hplace⟩
  pending := by
    intro i u hi relpath content hset
    by_cases hwho : i = who
    · subst hwho
      rw [settle_opened_self] at hi
      exact hpending u hi relpath content hset
    · rw [settle_opened_of_ne _ hwho] at hi
      exact (h.pending i u hi relpath content hset).append _

/-- A commit, refused or not, adds to the disk what it was to set. -/
theorem Traced.adds (h : Traced events s) (e : Event) (hopen : s.opened who = some tx)
    {store : Store} (hadds : tx.Adds s.store store) {u : Option Transaction}
    (hpending : ∀ v, u = some v → ∀ (relpath : String) (content : Bytes),
      v.blobs[relpath]? = some (some content) → tx.blobs[relpath]? = some (some content)) :
    Traced (events ++ [e]) (s.settle store who u) := by
  have hset : ∀ blob ∈ tx.staged, WasSet events blob.1 blob.2 := fun blob hmem =>
    h.pending who tx hopen _ _ (mem_staged.1 hmem)
  refine h.settle e (fun q hdir => ?_) (fun q content hfile => ?_) ?_
  · refine (hadds.dir q hdir).imp id fun habove => ?_
    obtain ⟨blob, hmem, hprefix⟩ := List.any_eq_true.1 habove
    exact ⟨blob.1, blob.2, hset blob hmem, of_decide_eq_true hprefix⟩
  · refine (hadds.file q content hfile).imp id fun hblob => ?_
    obtain ⟨blob, hmem, hplace, rfl⟩ := hblob
    exact ⟨blob.1, hset blob hmem, hplace⟩
  · intro v hv relpath content hblob
    exact (h.pending who tx hopen relpath content (hpending v hv relpath content hblob)).append _

/-- A blob that is pending after an edit was pending before or is set by
it. -/
theorem edit_sets {tx' : Transaction} {edit : Edit} (hedit : tx.edit edit = .ok tx')
    {relpath : String} {content : Bytes} (h : tx'.blobs[relpath]? = some (some content)) :
    tx.blobs[relpath]? = some (some content) ∨ edit = .setBlob relpath content := by
  have hchange : ∀ key value, tx.change key value = .ok tx' →
      tx.blobs[relpath]? = some (some content) := by
    intro key value hedit
    obtain ⟨-, rfl⟩ := change_eq hedit
    exact h
  have hblob : ∀ r pending, tx.changeBlob r pending = .ok tx' →
      tx.blobs[relpath]? = some (some content) ∨ r = relpath ∧ pending = some content := by
    intro r pending hedit
    obtain ⟨-, -, rfl⟩ := changeBlob_eq hedit
    dsimp only at h
    rw [Std.ExtTreeMap.getElem?_insert] at h
    split at h
    · next heq => exact .inr ⟨by simpa using heq, Option.some.inj h⟩
    · exact .inl h
  cases edit with
  | set key value => exact .inl (hchange key (some value) hedit)
  | delete key => exact .inl (hchange key none hedit)
  | setBlob r c =>
      refine (hblob r (some c) hedit).imp id fun heq => ?_
      obtain ⟨rfl, heq⟩ := heq
      cases heq
      rfl
  | deleteBlob r =>
      refine (hblob r none hedit).imp id fun heq => ?_
      obtain ⟨-, heq⟩ := heq
      cases heq

theorem Move.traced (hs : s.Shelved) (h : Traced events s)
    (hmove : Move s e.who e.action e.answer t) : Traced (events ++ [e]) t := by
  have hfresh : ∀ (store : Store) (n : UInt64) (writable : Bool) (v : Transaction),
      some (fresh store n writable) = some v → ∀ (relpath : String) (content : Bytes),
      v.blobs[relpath]? ≠ some (some content) := by
    intro store n writable v hv relpath content
    cases hv
    simp [fresh]
  generalize haction : e.action = a at hmove
  generalize e.who = who at hmove
  generalize e.answer = answer at hmove
  cases hmove with
  | begin hfree hlock hserial =>
      exact h.settle e (fun _ => .inl) (fun _ _ => .inl) fun v hv relpath content hblob =>
        absurd hblob (hfresh _ _ _ v hv relpath content)
  | @edit tx tx' edit hopen hedit =>
      refine h.settle e (fun _ => .inl) (fun _ _ => .inl) fun v hv relpath content hblob => ?_
      cases hv
      rcases edit_sets hedit hblob with hpending | rfl
      · exact (h.pending who tx hopen relpath content hpending).append _
      · exact ⟨e, by simp, haction⟩
  | editRefused hopen hedit => exact h.append e
  | close hopen ha => exact h.settle e (fun _ => .inl) (fun _ _ => .inl) (by simp)
  | @commit tx after hopen hwrites hchanges hplaced =>
      exact h.adds e hopen (hplaced.adds (hs.pends who tx hopen) hs.closed) (by simp)
  | @commitRefused tx after err hopen hwrites hchanges hrefused =>
      exact h.adds e hopen (hrefused.adds (hs.pends who tx hopen)) (by simp)
  | renew hopen hlock hchanges hserial =>
      exact h.settle e (fun _ => .inl) (fun _ _ => .inl) fun v hv relpath content hblob =>
        absurd hblob (hfresh _ _ _ v hv relpath content)
  | @recommit tx after hopen hwrites hchanges hplaced =>
      exact h.adds e hopen (hplaced.adds (hs.pends who tx hopen) hs.closed)
        fun v hv relpath content hblob => absurd hblob (hfresh _ _ _ v hv relpath content)
  | @recommitRefused tx after err hopen hwrites hchanges hrefused =>
      refine h.adds e hopen (hrefused.adds (hs.pends who tx hopen)) fun v hv _ _ hblob => ?_
      cases hv
      exact hblob

/-- So does any number of steps from an empty store. -/
theorem Steps.traced {root cwd : String} (h : Steps (empty root cwd) events s) :
    Traced events s := by
  induction h with
  | refl => exact traced_empty root cwd
  | snoc hsteps hact ih =>
      have hsane := hsteps.sane (sane_empty root cwd)
      have hshelved := hsteps.shelved (sane_empty root cwd) (shelved_empty root cwd)
      exact (hsane.move hact).traced hshelved ih

-- ===================================================== whose the files are

/-- Every file lies at the place of a committed relpath. -/
def Owned (store : Store) : Prop :=
  ∀ q content, store.files.node? q = some (.file content) →
    ∃ relpath, store.index.blobs.contains relpath = true ∧ Store.place relpath = q

theorem owned_empty (root cwd : String) : Owned (empty root cwd).store := by
  intro q content h
  obtain ⟨_, ⟨_, hmem, _⟩, _⟩ := (traced_empty root cwd).file q content h
  cases hmem

/-- Landing leaves no file of a relpath that it deletes. -/
theorem landed_owned {store after : Store} (hplaced : tx.Placed store after) (hpends : tx.Pends)
    (hclosed : store.files.Closed) (hstands : AllStand store store.index) (h : Owned store) :
    Owned (landed tx after store.index) := by
  intro q content hfile
  rw [node?_landed hplaced hpends hclosed] at hfile
  unfold leaves at hfile
  cases hempties : tx.removals.any (empties store.filesRoot q) with
  | true =>
      rw [hempties] at hfile
      have hbefore := of_swept hfile
      rw [hbefore] at hfile
      cases hfile
  | false =>
      rw [hempties, swept_false] at hfile
      simp only [landed_index, contains_overlay]
      rcases foldl_shelve_cases tx.staged q
          (if isAbove tx.staged q then some .dir else store.files.node? q)
        with heq | ⟨blob, hmem, hplace, -⟩
      · rw [heq] at hfile
        split at hfile
        · cases hfile
        · obtain ⟨relpath, hcommitted, hplace⟩ := h q content hfile
          refine ⟨relpath, ?_, hplace⟩
          cases hpending : tx.blobs[relpath]? with
          | none => exact hcommitted
          | some pending => cases pending with
            | some content => rfl
            | none =>
                -- what is deleted stands, and so is swept up
                have hstand := hstands relpath hcommitted
                have hempty : empties store.filesRoot q relpath = true := by
                  unfold empties
                  rw [hstand.taken, hstand.file, decide_eq_true hplace]
                  rfl
                exact absurd hempty
                  (List.any_eq_false.1 hempties relpath (mem_removals.2 hpending))
      · exact ⟨blob.1, by rw [mem_staged.1 hmem]; rfl, hplace⟩

/-- Where no commit is refused, no file is left behind. -/
theorem Move.owned {a : Action} {answer : Except StoreError UInt64} (hs : s.Shelved)
    (h : Move s who a answer t)
    (hok : a = .commit ∨ a = .restart true → answer.isOk = true) (howned : Owned s.store) :
    Owned t.store := by
  cases h with
  | begin | edit | editRefused | close | renew => exact howned
  | @commit tx after hopen hwrites hchanges hplaced
  | @recommit tx after hopen hwrites hchanges hplaced =>
      exact landed_owned hplaced (hs.pends who tx hopen) hs.closed hs.current howned
  | commitRefused => cases hok (.inl rfl)
  | recommitRefused => cases hok (.inr rfl)

theorem Steps.owned {root cwd : String} (h : Steps (empty root cwd) events s)
    (hok : ∀ e ∈ events, e.action = .commit ∨ e.action = .restart true → e.answer.isOk = true) :
    Owned s.store := by
  induction h with
  | refl => exact owned_empty root cwd
  | @snoc events t u e hsteps hact ih =>
      have hsane := hsteps.sane (sane_empty root cwd)
      have hshelved := hsteps.shelved (sane_empty root cwd) (shelved_empty root cwd)
      exact (hsane.move hact).owned hshelved (hok e (by simp))
        (ih fun e hmem => hok e (List.mem_append_left _ hmem))

-- ===================================================== commits with room

/-- A file in the way of a realizable outcome is that of a blob that is
deleted, if it is that of a committed one at all. -/
theorem mem_removals_of_passed (howned : Owned s.store)
    (hreal : Realizable (tx.overlay s.store.index).blobs) {blob : String × Bytes}
    (hblob : blob ∈ tx.staged) {q : Place} (hq : q <+: (Store.place blob.1).dropLast)
    {content : Bytes} (hfile : s.store.files.node? q = some (.file content)) :
    ∃ relpath ∈ tx.removals, Store.place relpath = q := by
  obtain ⟨relpath, hcommitted, hplace⟩ := howned q content hfile
  refine ⟨relpath, mem_removals.2 ?_, hplace⟩
  refine Classical.byContradiction fun hkept => ?_
  have hmem : (tx.overlay s.store.index).blobs.contains relpath = true := by
    rw [contains_overlay]
    cases hpending : tx.blobs[relpath]? with
    | none => exact hcommitted
    | some pending => cases pending with
      | some content => rfl
      | none => exact absurd hpending hkept
  rw [← hplace] at hq
  exact hreal.not_above hmem (contains_of_staged hblob _) hq

/-- A commit with a realizable outcome succeeds just if there is room for
each blob that it sets. Directories are in the way that were made for
blobs set before, whether or not these are still there, and files of
blobs set before; if no commit was refused, these are files of blobs that
the same commit deletes. -/
theorem commit_ok_iff_room {root cwd : String} (h : Steps (empty root cwd) events s)
    (hopen : s.opened who = some tx)
    (hreal : Realizable (tx.overlay s.store.index).blobs) :
    ∃ t answer, s.act who .commit = some (t, answer)
      ∧ (answer.isOk = true ↔ ∀ blob ∈ tx.staged, Room s.store blob.1)
      ∧ (∀ q, s.store.files.node? q = some .dir → q ≠ [] →
          ∃ relpath content, WasSet events relpath content ∧ q <+: (Store.place relpath).dropLast)
      ∧ (∀ q content, s.store.files.node? q = some (.file content) →
          ∃ relpath, WasSet events relpath content ∧ Store.place relpath = q)
      ∧ ((∀ e ∈ events, e.action = .commit ∨ e.action = .restart true → e.answer.isOk = true) →
          ∀ blob ∈ tx.staged, ∀ q, q <+: (Store.place blob.1).dropLast → ∀ content,
            s.store.files.node? q = some (.file content) →
              ∃ relpath ∈ tx.removals, Store.place relpath = q) := by
  have hsane := h.sane (sane_empty root cwd)
  have hshelved := h.shelved (sane_empty root cwd) (shelved_empty root cwd)
  have hroom := hreal.placed_iff (hshelved.pends who tx hopen) hshelved.closed
  refine ⟨s.settle (tx.commit s.store).1 who none, (tx.commit s.store).2.2, ?_, ?_,
    h.traced.dir, h.traced.file, fun hok blob hblob q hq content hfile =>
      mem_removals_of_passed (h.owned hok) hreal hblob hq hfile⟩
  · unfold act
    rw [hopen]
  · rw [← hroom]
    rcases (hsane.fit who tx hopen).commit_cases with
      ⟨hchanges, hcommit⟩ | ⟨-, hchanges, after, e, hrefused, hcommit⟩
      | ⟨-, hchanges, after, hplaced, hcommit⟩
    · rw [hcommit]
      refine iff_of_true rfl ⟨s.store, s.store, ?_, ?_⟩ <;> rw [staged_eq_nil hchanges] <;> rfl
    · rw [hcommit]
      exact iff_of_false Bool.false_ne_true hrefused.not_placed
    · rw [hcommit]
      exact iff_of_true rfl ⟨after, hplaced⟩

set_option maxRecDepth 20000 in
/-- There is room for a blob beside another. -/
theorem commit_ok_iff_room_beside : ∃ events s t tx,
    (empty "depot" "/").run
      [(0, .begin true), (0, .edit (.setBlob "a/b" [1])), (0, .commit),
        (1, .begin true), (1, .edit (.setBlob "a/c" [2]))] = some (events, s)
    ∧ s.opened 1 = some tx ∧ tx.writable = true
    ∧ Realizable (tx.overlay s.store.index).blobs
    ∧ s.act 1 .commit = some (t, .ok 2) ∧ ∀ blob ∈ tx.staged, Room s.store blob.1 := by
  have hrun : (empty "depot" "/").run
      [(0, .begin true), (0, .edit (.setBlob "a/b" [1])), (0, .commit),
        (1, .begin true), (1, .edit (.setBlob "a/c" [2]))] = some (_, _) := rfl
  obtain ⟨t, answer, hact, hiff, -⟩ :=
    @commit_ok_iff_room _ 1 _ _ _ _ (steps_of_run hrun) rfl (realizable_iff.2 (by decide +kernel))
  cases hact
  exact ⟨_, _, _, _, hrun, rfl, rfl, realizable_iff.2 (by decide +kernel), rfl, hiff.1 rfl⟩

set_option maxRecDepth 20000 in
/-- There is none where a directory is left of a blob that was deleted. -/
theorem commit_refused_for_left_dir : ∃ events s t tx,
    (empty "depot" "/").run
      [(0, .begin true), (0, .edit (.setBlob "a/b" [1])), (0, .commit),
        (1, .begin true), (1, .edit (.deleteBlob "a/b")), (1, .commit),
        (2, .begin true), (2, .edit (.setBlob "a" [1]))] = some (events, s)
    ∧ s.opened 2 = some tx ∧ tx.writable = true
    ∧ Realizable (tx.overlay s.store.index).blobs
    ∧ s.act 2 .commit = some (t, .error (.io "depot/+files/a" .isDirectory)) := by
  have hrun : (empty "depot" "/").run
      [(0, .begin true), (0, .edit (.setBlob "a/b" [1])), (0, .commit),
        (1, .begin true), (1, .edit (.deleteBlob "a/b")), (1, .commit),
        (2, .begin true), (2, .edit (.setBlob "a" [1]))] = some (_, _) := rfl
  exact ⟨_, _, _, _, hrun, rfl, rfl, realizable_iff.2 (by decide +kernel), rfl⟩

end Site

end Depot
