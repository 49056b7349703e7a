/-
Uploads in one transaction. Each is answered with a handle, or is refused
before anything is written (`Upload.ask_cases`); what the transaction
holds then, for every relpath, is the content of the last upload that was
answered with a handle on it, and a record of its digest
(`Batch.Faithful`). One more upload keeps that (`Batch.Faithful.add`), so
it holds of any number. Uploads to different relpaths lie at different
places, none of them below another, so that a commit puts each of them
where it is found by those that begin afterwards (`entry_landed`).
-/
import Depot.Proofs.Store.Inventory
import Depot.Proofs.Store.Publishing

namespace Depot

open Files Transaction

/-- Content that is uploaded to an index, under a name and at a time. -/
structure Upload where
  now : String
  user : String
  index : String
  basename : String
  content : Bytes

/-- What an upload is answered, and the transaction with its content. -/
def Upload.ask (u : Upload) (algo : Digest.Algo) (store : Store) (tx : Transaction) :
    Except StoreError (Entry × Transaction) :=
  Entry.upload tx store algo u.now u.user u.index u.basename u.content

/-- The digest of the content. -/
def Upload.spec (u : Upload) (algo : Digest.Algo) : HashSpec := HashSpec.ofContent algo u.content

/-- Where the content is to be kept. -/
def Upload.relpath (u : Upload) (algo : Digest.Algo) : String :=
  Relpath.ofUpload u.user u.index (u.spec algo) u.basename

/-- A transaction, and what the uploads were answered that it was asked
for. -/
structure Batch where
  tx : Transaction
  answers : List (Upload × Except StoreError Entry) := []

namespace Batch

/-- The batch with one more upload. One that is refused leaves the
transaction as it was. -/
def add (algo : Digest.Algo) (store : Store) (b : Batch) (u : Upload) : Batch :=
  match u.ask algo store b.tx with
  | .ok (e, tx) => ⟨tx, b.answers ++ [(u, .ok e)]⟩
  | .error err => ⟨b.tx, b.answers ++ [(u, .error err)]⟩

/-- Uploads to a transaction, one after the other. -/
def ofUploads (algo : Digest.Algo) (store : Store) (tx : Transaction) (uploads : List Upload) :
    Batch :=
  uploads.foldl (add algo store) ⟨tx, []⟩

/-- The last upload that was answered with a handle on a relpath. -/
def last? (b : Batch) (relpath : String) : Option Upload :=
  (b.answers.filterMap fun (u, answer) => match answer with
    | .ok e => if e.relpath = relpath then some u else none
    | .error _ => none).getLast?

end Batch

variable {algo : Digest.Algo} {store : Store} {tx first : Transaction} {relpath : String}
  {u : Upload} {b : Batch}

-- ===================================================== one upload

/-- An upload is refused if a name is not plain or the record that is there
cannot be read, and nothing is written then; any other sets its content,
and declares its digest. -/
theorem Upload.ask_cases (hw : tx.writable = true) (u : Upload) (algo : Digest.Algo)
    (store : Store) :
    (Entry.isUpload u.user u.index u.basename = false ∧ u.ask algo store tx
        = .error (.invalidRelpath (u.user ++ "/" ++ u.index ++ "/" ++ u.basename)))
    ∨ (Entry.isUpload u.user u.index u.basename = true
        ∧ ∃ err, Entry.load tx store algo (u.relpath algo) = .error err
          ∧ u.ask algo store tx = .error err)
    ∨ (Entry.isUpload u.user u.index u.basename = true
        ∧ ∃ r : FileRecord, r.hash = some (u.spec algo).toText ∧ r.size = some u.content.length
          ∧ u.ask algo store tx = .ok (⟨u.relpath algo, r, algo⟩,
            Entry.Patch.apply ⟨u.relpath algo, some r, some (some u.content)⟩ tx)) := by
  cases hnames : Entry.isUpload u.user u.index u.basename with
  | false =>
      refine .inl ⟨rfl, ?_⟩
      unfold ask Entry.upload
      rw [hnames]
      rfl
  | true =>
      refine .inr ?_
      have hnew : Entry.loadOrNew tx store algo (u.relpath algo)
          = (Entry.load tx store algo (u.relpath algo)).map
            (·.getD ⟨u.relpath algo, {}, algo⟩) := rfl
      cases hload : Entry.load tx store algo (u.relpath algo) with
      | error err =>
          rw [hload] at hnew
          unfold relpath spec at hnew
          refine .inl ⟨rfl, err, rfl, ?_⟩
          unfold ask Entry.upload
          rw [if_neg (by simp [hnames])]
          dsimp only
          rw [hnew]
          rfl
      | ok found =>
          have hloaded : Entry.loadOrNew tx store algo (u.relpath algo)
              = .ok (found.getD ⟨u.relpath algo, {}, algo⟩) := by
            rw [hnew, hload]
            rfl
          rw [Entry.of_loadOrNew hloaded] at hloaded
          have hvalid := (Relpath.plain_ofUpload hnames
            (.inr ⟨algo, u.content, rfl⟩ : (u.spec algo).Genuine)).valid
          exact .inr ⟨rfl, _, rfl, rfl, Entry.upload_eq hw hnames hloaded hvalid⟩

/-- So one that is refused is refused for its names, or for a record that
cannot be read. -/
theorem Upload.ask_error (hw : tx.writable = true) {err : StoreError}
    (h : u.ask algo store tx = .error err) :
    Entry.isUpload u.user u.index u.basename = false
        ∧ err = .invalidRelpath (u.user ++ "/" ++ u.index ++ "/" ++ u.basename)
      ∨ Entry.isUpload u.user u.index u.basename = true
        ∧ Entry.load tx store algo (u.relpath algo) = .error err := by
  rcases u.ask_cases hw algo store with
    ⟨hnames, hrefused⟩ | ⟨hnames, err', hload, hrefused⟩ | ⟨-, r, -, -, htaken⟩
  · exact .inl ⟨hnames, Except.error.inj (h.symm.trans hrefused)⟩
  · obtain rfl := Except.error.inj (h.symm.trans hrefused)
    exact .inr ⟨hnames, hload⟩
  · cases h.symm.trans htaken

theorem Batch.add_of_ok {e : Entry} {t : Transaction} (h : u.ask algo store b.tx = .ok (e, t)) :
    b.add algo store u = ⟨t, b.answers ++ [(u, .ok e)]⟩ := by
  unfold add
  rw [h]

theorem Batch.add_of_error {err : StoreError} (h : u.ask algo store b.tx = .error err) :
    b.add algo store u = ⟨b.tx, b.answers ++ [(u, .error err)]⟩ := by
  unfold add
  rw [h]

-- ===================================================== the last upload

theorem Batch.last?_ok (b : Batch) (tx : Transaction) (u : Upload) (e : Entry) (relpath : String) :
    last? ⟨tx, b.answers ++ [(u, .ok e)]⟩ relpath
      = if e.relpath = relpath then some u else b.last? relpath := by
  unfold last?
  rw [List.filterMap_append]
  by_cases h : e.relpath = relpath <;> simp [h]

theorem Batch.last?_error (b : Batch) (tx : Transaction) (u : Upload) (err : StoreError)
    (relpath : String) :
    last? ⟨tx, b.answers ++ [(u, .error err)]⟩ relpath = b.last? relpath := by
  unfold last?
  rw [List.filterMap_append]
  simp

/-- A relpath that an upload was answered with has a last such upload. -/
theorem Batch.last?_of_mem {e : Entry} (h : (u, .ok e) ∈ b.answers) :
    ∃ last, b.last? e.relpath = some last := by
  have hmem : u ∈ b.answers.filterMap fun (u, answer) => match answer with
      | .ok other => if other.relpath = e.relpath then some u else none
      | .error _ => none :=
    List.mem_filterMap.2 ⟨_, h, if_pos rfl⟩
  exact ⟨_, List.getLast?_eq_some_getLast (List.ne_nil_of_mem hmem)⟩

theorem Batch.mem_of_last? (h : b.last? relpath = some u) :
    ∃ e, (u, .ok e) ∈ b.answers ∧ e.relpath = relpath := by
  obtain ⟨⟨v, answer⟩, hmem, hv⟩ := List.mem_filterMap.1 (List.mem_of_getLast? h)
  cases answer with
  | error err => cases hv
  | ok e =>
      dsimp only at hv
      split at hv
      · next heq =>
        cases hv
        exact ⟨e, hmem, heq⟩
      · cases hv

-- ===================================================== uploads after others

/-- What an upload is answered does not depend on the answers before. -/
theorem Batch.add_eq (algo : Digest.Algo) (store : Store) (b : Batch) (u : Upload) :
    b.add algo store u = ⟨(add algo store ⟨b.tx, []⟩ u).tx,
      b.answers ++ (add algo store ⟨b.tx, []⟩ u).answers⟩ := by
  unfold add
  dsimp only
  cases u.ask algo store b.tx <;> rfl

theorem Batch.foldl_add (algo : Digest.Algo) (store : Store) (b : Batch) (uploads : List Upload) :
    uploads.foldl (add algo store) b = ⟨(ofUploads algo store b.tx uploads).tx,
      b.answers ++ (ofUploads algo store b.tx uploads).answers⟩ := by
  unfold ofUploads
  induction uploads generalizing b with
  | nil => simp
  | cons u rest ih =>
      rw [List.foldl_cons, List.foldl_cons, ih, ih (add algo store ⟨b.tx, []⟩ u), add_eq]
      simp

/-- Uploads after others go on with the transaction that those leave. -/
theorem Batch.ofUploads_append (algo : Digest.Algo) (store : Store) (tx : Transaction)
    (before rest : List Upload) :
    ofUploads algo store tx (before ++ rest)
      = ⟨(ofUploads algo store (ofUploads algo store tx before).tx rest).tx,
        (ofUploads algo store tx before).answers
          ++ (ofUploads algo store (ofUploads algo store tx before).tx rest).answers⟩ := by
  conv => lhs; unfold ofUploads
  rw [List.foldl_append, foldl_add]
  rfl

theorem Batch.ofUploads_singleton (algo : Digest.Algo) (store : Store) (tx : Transaction)
    (u : Upload) : ofUploads algo store tx [u] = add algo store ⟨tx, []⟩ u := rfl

/-- Every upload is answered, in turn. -/
theorem Batch.map_answers (algo : Digest.Algo) (store : Store) (tx : Transaction)
    (uploads : List Upload) :
    (ofUploads algo store tx uploads).answers.map Prod.fst = uploads := by
  induction uploads using List.reverseRecOn with
  | nil => rfl
  | append_singleton before u ih =>
      rw [ofUploads_append, List.map_append, ih]
      congr 1
      rw [ofUploads_singleton]
      unfold add
      dsimp only
      cases u.ask algo store (ofUploads algo store tx before).tx <;> rfl

/-- One that is refused might as well not have been asked for. -/
theorem Batch.ofUploads_refused {err : StoreError} {before : List Upload}
    (h : u.ask algo store (ofUploads algo store tx before).tx = .error err) (rest : List Upload) :
    (ofUploads algo store tx (before ++ u :: rest)).tx
        = (ofUploads algo store tx (before ++ rest)).tx
      ∧ ∃ answers, (ofUploads algo store tx (before ++ rest)).answers
          = (ofUploads algo store tx before).answers ++ answers
        ∧ (ofUploads algo store tx (before ++ u :: rest)).answers
          = (ofUploads algo store tx before).answers ++ (u, .error err) :: answers := by
  have hadd : ofUploads algo store (ofUploads algo store tx before).tx [u]
      = ⟨(ofUploads algo store tx before).tx, [(u, .error err)]⟩ :=
    add_of_error (b := ⟨(ofUploads algo store tx before).tx, []⟩) h
  rw [← List.singleton_append, ofUploads_append, ofUploads_append, ofUploads_append, hadd]
  exact ⟨rfl, _, rfl, rfl⟩

-- ===================================================== any number of uploads

/-- The transaction holds what was uploaded last, and nothing else but what
it held at first. -/
structure Batch.Faithful (algo : Digest.Algo) (first : Transaction) (b : Batch) : Prop where
  same : b.tx = { first with records := b.tx.records, blobs := b.tx.blobs }
  belongs : ∀ relpath u, b.last? relpath = some u →
    Artifact.BelongsAt ⟨u.content, u.spec algo⟩ relpath
  blobs : ∀ relpath : String, b.tx.blobs[relpath]? = (b.last? relpath).map fun u => some u.content
  records : ∀ relpath u, b.last? relpath = some u →
    ∃ r : FileRecord, b.tx.records[Entry.keyOf relpath]? = some (some r.toJson)
      ∧ r.hash = some (u.spec algo).toText ∧ r.size = some u.content.length

namespace Batch.Faithful

theorem start (h : first.blobs = ∅) : Faithful algo first ⟨first, []⟩ where
  same := rfl
  belongs _ _ hlast := nomatch hlast
  blobs relpath := by rw [h]; exact Std.ExtTreeMap.getElem?_empty
  records _ _ hlast := nomatch hlast

/-- One more upload that is refused. -/
theorem refused (h : Faithful algo first b) (u : Upload) (err : StoreError) :
    Faithful algo first ⟨b.tx, b.answers ++ [(u, .error err)]⟩ where
  same := h.same
  belongs p v hv := h.belongs p v ((last?_error ..).symm.trans hv)
  blobs p := by
    rw [last?_error]
    exact h.blobs p
  records p v hv := h.records p v ((last?_error ..).symm.trans hv)

/-- One more upload that is taken in. -/
theorem taken (h : Faithful algo first b)
    (hnames : Entry.isUpload u.user u.index u.basename = true) {r : FileRecord}
    (hhash : r.hash = some (u.spec algo).toText) (hsize : r.size = some u.content.length) :
    Faithful algo first
      ⟨Entry.Patch.apply ⟨u.relpath algo, some r, some (some u.content)⟩ b.tx,
        b.answers ++ [(u, .ok ⟨u.relpath algo, r, algo⟩)]⟩ where
  same := by
    unfold Entry.Patch.apply
    rw [h.same]
  belongs p v hv := by
    rw [last?_ok] at hv
    split at hv
    · next heq =>
      cases hv
      exact ⟨u.user, u.index, u.basename, algo, hnames, rfl, heq.symm⟩
    · exact h.belongs p v hv
  blobs p := by
    rw [last?_ok]
    unfold Entry.Patch.apply
    dsimp only
    rw [Std.ExtTreeMap.getElem?_insert]
    by_cases heq : u.relpath algo = p
    · simp [heq]
    · simpa [heq] using h.blobs p
  records p v hv := by
    rw [last?_ok] at hv
    unfold Entry.Patch.apply
    dsimp only at hv ⊢
    rw [Std.ExtTreeMap.getElem?_insert]
    split at hv
    · next heq =>
      cases hv
      exact ⟨r, by simp [heq], hhash, hsize⟩
    · next hne =>
      have hkey : Entry.keyOf (u.relpath algo) ≠ Entry.keyOf p := fun heq =>
        hne (Entry.keyOf_inj heq)
      simpa [hkey] using h.records p v hv

/-- One more upload. -/
theorem add (h : Faithful algo first b) (hw : first.writable = true) (store : Store)
    (u : Upload) : Faithful algo first (b.add algo store u) := by
  have hwrites : b.tx.writable = true := by rw [h.same]; exact hw
  rcases u.ask_cases hwrites algo store with
    ⟨-, hask⟩ | ⟨-, err, -, hask⟩ | ⟨hnames, r, hhash, hsize, hask⟩
  · rw [Batch.add_of_error hask]
    exact h.refused u _
  · rw [Batch.add_of_error hask]
    exact h.refused u err
  · rw [Batch.add_of_ok hask]
    exact h.taken hnames hhash hsize

/-- Any number of uploads. -/
theorem ofUploads (h : first.blobs = ∅) (hw : first.writable = true) (store : Store)
    (uploads : List Upload) : Faithful algo first (Batch.ofUploads algo store first uploads) :=
  List.foldlRecOn uploads _ (start h) fun _ hb u _ => hb.add hw store u

/-- What is pending is at relpaths that name files. -/
theorem pends (h : Faithful algo first b) : b.tx.Pends := by
  intro relpath content hpending
  rw [h.blobs] at hpending
  obtain ⟨u, hlast, -⟩ := Option.map_eq_some_iff.1 hpending
  obtain ⟨above, name, hplain, -⟩ := (h.belongs relpath u hlast).plain
  exact hplain.valid

/-- No two uploads lie at one place, or one above the other. -/
theorem alone (h : Faithful algo first b) (hlast : b.last? relpath = some u) :
    b.tx.Alone relpath := by
  intro other hne hpending hunder
  rw [h.blobs, Ne, Option.map_eq_none_iff] at hpending
  obtain ⟨v, hother⟩ := Option.ne_none_iff_exists'.1 hpending
  have hbelongs := h.belongs relpath u hlast
  have hbelongs' := h.belongs other v hother
  refine hne (hbelongs'.inj hbelongs (hunder.eq_of_length ?_).symm)
  rw [hbelongs.length_place, hbelongs'.length_place]

end Batch.Faithful

-- ===================================================== after a commit

/-- What a commit has put at a relpath that no other is in the way of is
found there by those that begin afterwards: the record, and the content. -/
theorem Site.entry_landed {after : Store} {r : FileRecord} {content : Bytes}
    (hplaced : tx.Placed store after) (hpends : tx.Pends) (hclosed : store.files.Closed)
    (hstands : AllStand store store.index) (halone : tx.Alone relpath)
    (hrecord : tx.records[Entry.keyOf relpath]? = some (some r.toJson)) (hcounted : r.Counted)
    (hblob : tx.blobs[relpath]? = some (some content)) (algo : Digest.Algo) (n : UInt64)
    (writable : Bool) :
    Entry.load (fresh (landed tx after store.index) n writable) (landed tx after store.index) algo
        relpath = .ok (some ⟨relpath, r, algo⟩)
      ∧ (fresh (landed tx after store.index) n writable).seen (landed tx after store.index) relpath
        = ⟨true, .ok (some content), .ok (some content.length)⟩ := by
  obtain ⟨-, -, hclosed', hstands'⟩ := landed_stands hplaced hpends hclosed hstands
  have hcommitted : (landed tx after store.index).index.blobs.contains relpath = true := by
    rw [landed_index, contains_overlay, hblob]
    rfl
  have hstand := hstands' relpath hcommitted
  constructor
  · refine Entry.load_committed Std.ExtTreeMap.getElem?_empty ?_ hcounted algo
    show (landed tx after store.index).index.records[Entry.keyOf relpath]? = _
    rw [landed_index, getElem?_overlay, hrecord]
    rfl
  · have hnode := node?_landed hplaced hpends hclosed (Store.place relpath)
    rw [halone.leaves hstand.file (by simp [hblob]), holds_of_pending hblob] at hnode
    have hseen : (fresh (landed tx after store.index) n writable).seen
        (landed tx after store.index) relpath = _ :=
      seen_eq rfl Std.ExtTreeMap.getElem?_empty hclosed' fun _ => hstand
    rw [hcommitted, if_pos rfl, hnode] at hseen
    exact hseen

namespace Site

variable {s : Site} {after : Store} {ended : Transaction} {n m : UInt64}

/-- The site after sessions, each of which has a digest algorithm of its
own. -/
def servedAll (s : Site) (sessions : List (Digest.Algo × List (Nat × Request))) : Site :=
  sessions.foldl (fun s (algo, requests) => s.served algo requests) s

theorem Kept.servedAll (hs : s.Kept) (sessions : List (Digest.Algo × List (Nat × Request))) :
    (s.servedAll sessions).Kept :=
  List.foldlRecOn sessions _ hs fun _ hs session _ => hs.served session.1 session.2

/-- Once uploads have committed, who begins finds those that were the last at
their relpaths. -/
theorem entry_committed (hkept : s.Kept) (hserial : s.store.index.serial = some (toString n))
    (hbatch : b.Faithful algo (fresh s.store n true))
    (hsmall : ∀ relpath u, b.last? relpath = some u →
      u.content.length ≤ Json.Reader.maxGathered)
    (hcommit : b.tx.commit s.store = (after, ended, .ok m)) (writable : Bool) :
    ∃ later, start after writable = .ok later
      ∧ ∀ relpath last, b.last? relpath = some last →
        ∃ e, Entry.load later after algo relpath = .ok (some e)
          ∧ e.record.hash = some (last.spec algo).toText
          ∧ later.seen after relpath
            = ⟨true, .ok (some last.content), .ok (some last.content.length)⟩ := by
  have hfit : Fit s.store b.tx := by
    rw [hbatch.same]
    exact ⟨rfl, fun _ => ⟨rfl, hserial⟩, nofun⟩
  have hblob : ∀ relpath last, b.last? relpath = some last →
      b.tx.blobs[relpath]? = some (some last.content) := by
    intro relpath last hlast
    rw [hbatch.blobs, hlast]
    rfl
  rcases hfit.commit_cases with
    ⟨hchanges, hidle⟩ | ⟨-, -, _, _, -, hrefused⟩ | ⟨hwrites, -, ready, hplaced, hlanded⟩
  · rw [hcommit] at hidle
    cases hidle
    refine ⟨_, start_eq hserial writable, fun relpath last hlast => ?_⟩
    -- nothing was uploaded
    have hnone := hblob relpath last hlast
    rw [blobs_eq_empty hchanges, Std.ExtTreeMap.getElem?_empty] at hnone
    cases hnone
  · rw [hcommit] at hrefused
    cases hrefused
  · rw [hcommit] at hlanded
    cases hlanded
    refine ⟨_, start_eq (hfit.landed_serial hwrites ready) writable, fun relpath last hlast => ?_⟩
    obtain ⟨r, hrecord, hhash, hsize⟩ := hbatch.records relpath last hlast
    have hcounted : r.Counted := by
      intro size hr
      rw [hsize] at hr
      cases hr
      exact hsmall relpath last hlast
    obtain ⟨hload, hseen⟩ := entry_landed hplaced hbatch.pends hkept.shelved.closed
      hkept.shelved.current (hbatch.alone hlast) hrecord hcounted (hblob relpath last hlast) algo _
      writable
    exact ⟨_, hload, hhash, hseen⟩

/-- What is uploaded in a transaction is read back once it has committed, at
whatever site it began. For every relpath that an upload was answered with,
those that begin afterwards find the record, with the digest of the content
that was uploaded there last, and that content and its length. An upload
that is refused leaves the transaction and the other answers as they are
without it: it is refused for its names, or for a record that cannot be
read, before anything is written. The lengths of contents are counted in
64 bits. -/
theorem uploads_read_back {root cwd : String}
    {sessions : List (Digest.Algo × List (Nat × Request))} {uploads : List Upload}
    (hserved : (empty root cwd).servedAll sessions = s) (hstart : start s.store true = .ok tx)
    (hcounted : ∀ u ∈ uploads, u.content.length ≤ Json.Reader.maxGathered)
    (hcommit : (Batch.ofUploads algo s.store tx uploads).tx.commit s.store
      = (after, ended, .ok m)) :
    (∀ writable, ∃ later, start after writable = .ok later
      ∧ ∀ u e, (u, .ok e) ∈ (Batch.ofUploads algo s.store tx uploads).answers →
        ∃ last e', (Batch.ofUploads algo s.store tx uploads).last? e.relpath = some last
          ∧ Entry.load later after algo e.relpath = .ok (some e')
          ∧ e'.record.hash = some (HashSpec.ofContent algo last.content).toText
          ∧ later.seen after e.relpath
            = ⟨true, .ok (some last.content), .ok (some last.content.length)⟩)
    ∧ ∀ before u rest err, uploads = before ++ u :: rest →
        u.ask algo s.store (Batch.ofUploads algo s.store tx before).tx = .error err →
        (Batch.ofUploads algo s.store tx uploads).tx
            = (Batch.ofUploads algo s.store tx (before ++ rest)).tx
          ∧ (∃ answers, (Batch.ofUploads algo s.store tx (before ++ rest)).answers
              = (Batch.ofUploads algo s.store tx before).answers ++ answers
            ∧ (Batch.ofUploads algo s.store tx uploads).answers
              = (Batch.ofUploads algo s.store tx before).answers ++ (u, .error err) :: answers)
          ∧ (Entry.isUpload u.user u.index u.basename = false
              ∧ err = .invalidRelpath (u.user ++ "/" ++ u.index ++ "/" ++ u.basename)
            ∨ Entry.isUpload u.user u.index u.basename = true
              ∧ Entry.load (Batch.ofUploads algo s.store tx before).tx s.store algo
                (Relpath.ofUpload u.user u.index (HashSpec.ofContent algo u.content) u.basename)
                  = .error err) := by
  have hkept : s.Kept := hserved ▸ (kept_empty root cwd).servedAll sessions
  obtain ⟨n, hserial⟩ := hkept.sane.serial
  rw [start_eq hserial] at hstart
  cases hstart
  have hbatch : ∀ uploads, Batch.Faithful algo (fresh s.store n true)
      (Batch.ofUploads algo s.store (fresh s.store n true) uploads) :=
    Batch.Faithful.ofUploads rfl rfl s.store
  have hsmall : ∀ relpath u,
      (Batch.ofUploads algo s.store (fresh s.store n true) uploads).last? relpath = some u →
      u.content.length ≤ Json.Reader.maxGathered := by
    intro relpath u hlast
    obtain ⟨e, hmem, -⟩ := Batch.mem_of_last? hlast
    have hasked := List.mem_map_of_mem (f := Prod.fst) hmem
    rw [Batch.map_answers] at hasked
    exact hcounted u hasked
  refine ⟨fun writable => ?_, fun before u rest err hsplit hask => ?_⟩
  · obtain ⟨later, hlater, hfound⟩ :=
      entry_committed hkept hserial (hbatch uploads) hsmall hcommit writable
    refine ⟨later, hlater, fun u e hmem => ?_⟩
    obtain ⟨last, hlast⟩ := Batch.last?_of_mem hmem
    obtain ⟨e', hentry⟩ := hfound e.relpath last hlast
    exact ⟨last, e', hlast, hentry⟩
  · subst hsplit
    have hwrites : (Batch.ofUploads algo s.store (fresh s.store n true) before).tx.writable
        = true := by
      rw [(hbatch before).same]
      rfl
    obtain ⟨htx, hanswers⟩ := Batch.ofUploads_refused hask rest
    exact ⟨htx, hanswers, Upload.ask_error hwrites hask⟩

/-- An upload to where one is committed, one beside it, one under a name that
is not plain, and the first again. -/
def sampleUploads : List Upload :=
  [⟨"t1", "u", "i", "a", [0]⟩, ⟨"t2", "u", "i", "b", [0]⟩, ⟨"t3", "..", "i", "a", [0]⟩,
    ⟨"t4", "u", "i", "a", [0]⟩]

set_option maxRecDepth 20000 in
/-- Two of them get the relpath of the committed one, and the third is
refused. -/
theorem uploads_read_back_shared : ∃ (s : Site) (tx ended later : Transaction) (after : Store)
    (e : Entry),
    (empty "depot" "/").servedAll [(.sha256, [(0, .manage (.begin true))]),
      (.md5, [(0, .call (.use (.upload "t" "u" "i" "a" [0]))), (0, .manage .commit)])] = s
    ∧ start s.store true = .ok tx
    ∧ (Batch.ofUploads .md5 s.store tx sampleUploads).tx.commit s.store = (after, ended, .ok 2)
    ∧ (Batch.ofUploads .md5 s.store tx sampleUploads).answers.map
        (fun answer => answer.2.toOption.map (·.relpath))
      = [some "u/i/+f/93b/885adfe0da089/a", some "u/i/+f/93b/885adfe0da089/b", none,
        some "u/i/+f/93b/885adfe0da089/a"]
    ∧ start after false = .ok later
    ∧ Entry.load later after .md5 "u/i/+f/93b/885adfe0da089/a" = .ok (some e)
    ∧ e.record.hash = some "md5=93b885adfe0da089cdf634904fd59f71"
    ∧ later.seen after "u/i/+f/93b/885adfe0da089/a" = ⟨true, .ok (some [0]), .ok (some 1)⟩ := by
  obtain ⟨s, hs⟩ : ∃ s, (empty "depot" "/").servedAll [(.sha256, [(0, .manage (.begin true))]),
    (.md5, [(0, .call (.use (.upload "t" "u" "i" "a" [0]))), (0, .manage .commit)])] = s := ⟨_, rfl⟩
  have hstart : start s.store true = .ok (fresh s.store 1 true) :=
    start_eq (by rw [← hs]; decide +kernel) true
  obtain ⟨b, hb⟩ : ∃ b, Batch.ofUploads .md5 s.store (fresh s.store 1 true) sampleUploads = b :=
    ⟨_, rfl⟩
  have hsample : (b.tx.commit s.store).2.2 = .ok 2
      ∧ b.answers.map (fun answer => answer.2.toOption.map (·.relpath))
        = [some "u/i/+f/93b/885adfe0da089/a", some "u/i/+f/93b/885adfe0da089/b", none,
          some "u/i/+f/93b/885adfe0da089/a"]
      ∧ (b.last? "u/i/+f/93b/885adfe0da089/a").map (·.content) = some [0] := by
    rw [← hb, ← hs]
    decide +kernel
  obtain ⟨hcommitted, hanswers, hlast⟩ := hsample
  obtain ⟨after, ended, hcommit⟩ : ∃ after ended, b.tx.commit s.store = (after, ended, .ok 2) :=
    ⟨_, _, congrArg (fun answer => (_, _, answer)) hcommitted⟩
  subst hb
  obtain ⟨hread, -⟩ := uploads_read_back hs hstart (by decide) hcommit
  obtain ⟨later, hlater, hentries⟩ := hread false
  obtain ⟨u, hu, hcontent⟩ := Option.map_eq_some_iff.1 hlast
  obtain ⟨e, hmem, hrelpath⟩ := Batch.mem_of_last? hu
  obtain ⟨last, e', hlast', hload, hhash, hseen⟩ := hentries u e hmem
  rw [hrelpath] at hlast' hload hseen
  cases hu.symm.trans hlast'
  rw [hcontent] at hhash hseen
  refine ⟨s, _, ended, later, after, e', hs, hstart, hcommit, hanswers, hlater, hload, ?_, hseen⟩
  rw [hhash]
  decide +kernel

end Site

end Depot
