/-
The length that content is served with. It is the text that a response
gave for it, as long as none gives another and the content is not
deleted, and else the size in the record; so a captured text goes on
being served with content that it was not captured for.
`described_iff_faithful` says when entries tell the truth: throughout a
run, every entry that a transaction finds is served with the length of its
content, and without one if there is none, just if every call leaves a
record that fits the content beside it (`Call.Faithful`) and every commit
puts and removes files only where the entries that are found there fit
what it does (`FitsFiles`).
-/
import Depot.Proofs.Store.Calls
import Depot.Proofs.Store.Publishing

namespace Depot

open Files Transaction

-- ===================================================== what is served

namespace Entry

/-- The length that the content of an entry is served with. -/
def length? (e : Entry) : Option String := e.headers.lookup "content-length"

theorem length?_eq (e : Entry) :
    e.length? = (e.record.contentLength <|> e.record.size.map toString) := by
  unfold length? headers
  cases hlength : (e.record.contentLength <|> e.record.size.map toString) with
  | some text => simp
  | none => cases e.record.lastModified <;> simp

/-- A captured length, if there is one, is that of the content. -/
def Fits (captured : Option String) (content : Bytes) : Prop :=
  ∀ text, captured = some text → text = toString content.length

theorem fits_iff {captured : Option String} {content : Bytes} :
    Fits captured content
      ↔ (captured <|> some (toString content.length)) = some (toString content.length) := by
  unfold Fits
  cases captured with
  | none => simp
  | some text => simp

end Entry

namespace Transaction

variable {tx : Transaction} {store : Store} {relpath : String}

/-- The content that a transaction sees at a relpath. -/
def content? (tx : Transaction) (store : Store) (relpath : String) : Option Bytes :=
  match tx.blobs[relpath]? with
  | some pending => pending
  | none =>
      if (tx.observed store).blobs.contains relpath then store.files.file? (Store.place relpath)
      else none

/-- The entry that a transaction finds at a relpath, if it finds one, is
served with the length of the content that it sees there, and without one
if it sees none. -/
def Described (tx : Transaction) (store : Store) (relpath : String) : Prop :=
  ∀ algo e, Entry.load tx store algo relpath = .ok (some e) →
    (tx.hasBlob store relpath = true → ∃ n, tx.blobSize store relpath = .ok (some n)
      ∧ e.headers.lookup "content-length" = some (toString n))
    ∧ (tx.hasBlob store relpath = false → e.headers.lookup "content-length" = none)

/-- There are no blobs without a record. -/
def Covered (tx : Transaction) (store : Store) : Prop :=
  ∀ relpath, (tx.overlay (tx.observed store)).blobs.contains relpath = true →
    (tx.overlay (tx.observed store)).records[Entry.keyOf relpath]? ≠ none

/-- Where no entry is found, no content is seen. -/
theorem Covered.content?_eq_none (h : tx.Covered store) {algo : Digest.Algo}
    (hload : Entry.load tx store algo relpath = .ok none) : tx.content? store relpath = none := by
  by_contra hne
  apply h relpath
  · unfold content? at hne
    rw [contains_overlay]
    cases hpending : tx.blobs[relpath]? with
    | some pending =>
        rw [hpending] at hne
        exact Option.isSome_iff_ne_none.2 hne
    | none =>
        rw [hpending] at hne
        dsimp only at hne ⊢
        by_contra hnot
        exact hne (if_neg hnot)
  · unfold Entry.load Transaction.get at hload
    rw [getElem?_overlay]
    cases hpending : tx.records[Entry.keyOf relpath]? with
    | some pending =>
        rw [hpending] at hload
        cases pending with
        | none => rfl
        | some value =>
            obtain ⟨r, -, hnone⟩ := Entry.ok_of_map hload
            cases hnone
    | none =>
        rw [hpending] at hload
        dsimp only at hload ⊢
        cases htext : (tx.observed store).records[Entry.keyOf relpath]? with
        | none => rfl
        | some text =>
            rw [htext] at hload
            dsimp only at hload
            unfold Except.map at hload
            cases hread : readRecord (Entry.keyOf relpath) text with
            | error err => rw [hread] at hload; cases hload
            | ok value =>
                rw [hread] at hload
                obtain ⟨r, -, hnone⟩ := Entry.ok_of_map hload
                cases hnone

end Transaction

-- ===================================================== calls

namespace Entry

variable {algo : Digest.Algo} {store : Store} {tx : Transaction}

/-- The length in the record that a call writes, if it writes one, is that
of the content beside it. -/
def Call.Faithful (algo : Digest.Algo) (store : Store) (tx : Transaction) : Call → Prop
  | .use (.fetch e web _ url) =>
      ∀ source d, e.target tx url = .ok source → e.download web source = .ok d →
        Relpath.isValid e.relpath = true →
        Fits (d.headers.contentLength <|> e.record.contentLength) d.content
  | .use (.upload _ user index basename content) =>
      tx.writable = true → isUpload user index basename = true →
        ∀ e, loadOrNew tx store algo
            (Relpath.ofUpload user index (HashSpec.ofContent algo content) basename) = .ok e →
          Relpath.isValid e.relpath = true → Fits e.record.contentLength content
  | .setContent e content _ =>
      tx.writable = true → Relpath.isValid e.relpath = true → Fits e.record.contentLength content
  | .setHash e _ | .setUrl e _ | .setLastModified e _ =>
      tx.writable = true →
        e.length? = (tx.content? store e.relpath).map fun content => toString content.length
  | _ => True

/-- The record of a patch tells the length of the content beside it. -/
def Patch.Tells (p : Patch) (tx : Transaction) (store : Store) : Prop :=
  ∀ r algo, p.record = some r → (Entry.mk p.relpath r algo).length?
    = ((p.apply tx).content? store p.relpath).map fun content => toString content.length

theorem Patch.content?_apply (p : Patch) (tx : Transaction) (store : Store) :
    (p.apply tx).content? store p.relpath = p.blob.getD (tx.content? store p.relpath) := by
  unfold content?
  rw [p.blobs_apply]
  cases p.blob with
  | some content => rfl
  | none => rfl

theorem Patch.tells_iff {p : Patch} {r : FileRecord} (hrecord : p.record = some r) :
    p.Tells tx store ↔ (r.contentLength <|> r.size.map toString)
      = (p.blob.getD (tx.content? store p.relpath)).map fun content => toString content.length := by
  unfold Patch.Tells
  simp only [hrecord, p.content?_apply, length?_eq, Option.some.injEq]
  exact ⟨fun h => h r .sha256 rfl, fun h r' _ heq => heq ▸ h⟩

/-- A record beside content that is set tells its length just if the length
that was captured fits. -/
theorem Patch.tells_holding (relpath : String) (r : FileRecord) (content : Bytes) (date : String) :
    (Patch.mk relpath (some (r.holding content date)) (some (some content))).Tells tx store
      ↔ Fits r.contentLength content := by
  rw [fits_iff, tells_iff (r := r.holding content date) rfl]
  rfl

/-- A record beside content that is deleted tells of none. -/
theorem Patch.tells_cleared (relpath : String) (r : FileRecord) :
    (Patch.mk relpath (some r.cleared) (some none)).Tells tx store :=
  (tells_iff (r := r.cleared) rfl).2 rfl

/-- A record alone tells the length of what there is as it told it before. -/
theorem Patch.tells_record {relpath : String} {r : FileRecord} (old : FileRecord)
    (algo : Digest.Algo) (hlength : r.contentLength = old.contentLength)
    (hsize : r.size = old.size) :
    (Patch.mk relpath (some r) none).Tells tx store ↔ (Entry.mk relpath old algo).length?
      = (tx.content? store relpath).map fun content => toString content.length := by
  rw [length?_eq, tells_iff rfl, hlength, hsize]
  rfl

/-- What a link describes tells what was told before, or of nothing where
there was no entry. -/
theorem Patch.tells_map {link : Link} {found : Option Entry} (hcovered : tx.Covered store)
    (hload : load tx store algo link.relpath = .ok found)
    (hdescribed : ∀ e, found = some e →
      e.length? = (tx.content? store link.relpath).map fun content => toString content.length) :
    (Patch.mk link.relpath (some (describedBy link ((found.map (·.record)).getD {}))) none).Tells
      tx store := by
  refine (tells_record (r := describedBy link _) ((found.map (·.record)).getD {}) algo rfl rfl).2 ?_
  cases found with
  | none =>
      rw [length?_eq, hcovered.content?_eq_none hload]
      rfl
  | some e =>
      rw [← hdescribed e rfl, length?_eq, length?_eq]
      rfl

/-- A call is faithful just if what it writes tells the truth, where all
did so before. -/
theorem Call.faithful_iff (c : Call) (algo : Digest.Algo) (hcovered : tx.Covered store)
    (hdescribed : ∀ relpath algo e, load tx store algo relpath = .ok (some e) →
      e.length? = (tx.content? store relpath).map fun content => toString content.length) :
    c.Faithful algo store tx
      ↔ (tx.writable = true → ∀ p, Writes algo store tx c p → p.Tells tx store) := by
  cases c with
  | use op =>
      cases op with
      | map raw =>
          refine iff_of_true trivial fun _ p hwrites => ?_
          cases hwrites with
          | map hlink hload hnew =>
              exact Patch.tells_map hcovered hload fun e heq =>
                hdescribed _ algo e (heq ▸ hload)
      | fetch e web now url =>
          constructor
          · intro h _ p hwrites
            cases hwrites with
            | fetch hsource hdownload hvalid =>
                exact (Patch.tells_holding ..).2 (h _ _ hsource hdownload hvalid)
            | fetchDamaged => exact Patch.tells_cleared _ _
          · intro h source d hsource hdownload hvalid
            exact (Patch.tells_holding ..).1
              (h (writable_of_target hsource) _ (.fetch hsource hdownload hvalid))
      | upload now user index basename content =>
          constructor
          · intro h hw p hwrites
            cases hwrites with
            | upload hnames hload hvalid =>
                exact (Patch.tells_holding ..).2 (h hw hnames _ hload hvalid)
          · intro h hw hnames e hload hvalid
            have htells := h hw _ (.upload hnames hload hvalid)
            exact (Patch.tells_holding _ { e.record with
              hash := some (HashSpec.ofContent algo content).toText } _ _).1 htells
      | deleteContent e =>
          refine iff_of_true trivial fun _ p hwrites => ?_
          cases hwrites with
          | deleteContent => exact Patch.tells_cleared _ _
      | delete e =>
          refine iff_of_true trivial fun _ p hwrites => ?_
          cases hwrites with
          | delete | deleteStray => exact fun _ _ h => nomatch h
  | setContent e content date =>
      constructor
      · intro h hw p hwrites
        cases hwrites with
        | setContent hvalid => exact (Patch.tells_holding ..).2 (h hw hvalid)
      · intro h hw hvalid
        exact (Patch.tells_holding ..).1 (h hw _ (.setContent hvalid))
  | setHash e spec =>
      have hiff := @Patch.tells_record store tx e.relpath
        { e.record with hash := spec.map HashSpec.toText } e.record e.defaultAlgo rfl rfl
      refine ⟨fun h hw p hwrites => ?_, fun h hw => hiff.1 (h hw _ (.setHash e spec))⟩
      cases hwrites with
      | setHash => exact hiff.2 (h hw)
  | setUrl e url =>
      have hiff := @Patch.tells_record store tx e.relpath
        { e.record with url := some url } e.record e.defaultAlgo rfl rfl
      refine ⟨fun h hw p hwrites => ?_, fun h hw => hiff.1 (h hw _ (.setUrl e url))⟩
      cases hwrites with
      | setUrl => exact hiff.2 (h hw)
  | setLastModified e date =>
      have hiff := @Patch.tells_record store tx e.relpath
        { e.record with lastModified := some date } e.record e.defaultAlgo rfl rfl
      refine ⟨fun h hw p hwrites => ?_, fun h hw => hiff.1 (h hw _ (.setLastModified e date))⟩
      cases hwrites with
      | setLastModified => exact hiff.2 (h hw)

/-- What is seen at other relpaths is as before. -/
theorem Elsewhere.content? {t : Transaction} {relpath other : String}
    (h : Elsewhere relpath tx t) (hne : other ≠ relpath) :
    t.content? store other = tx.content? store other := by
  unfold Transaction.content?
  rw [h.blobs other hne, h.same]
  rfl

/-- A record goes only with its blob. -/
theorem Call.Writes.record_none {c : Call} {p : Patch} (h : Writes algo store tx c p)
    (hrecord : p.record = none) : p.blob = some none ∨ Relpath.isValid p.relpath = false := by
  cases h with
  | delete => exact .inl rfl
  | deleteStray hvalid => exact .inr hvalid
  | map | fetch | fetchDamaged | upload | deleteContent | setContent | setHash | setUrl
  | setLastModified => cases hrecord

/-- No call leaves a blob without a record. -/
theorem Call.covered (c : Call) (algo : Digest.Algo) (h : tx.Covered store)
    (hvalid : ∀ relpath, (tx.overlay (tx.observed store)).blobs.contains relpath = true →
      Relpath.isValid relpath = true) : (c.apply algo store tx).Covered store := by
  rcases c.idle_or_writes algo store tx with hidle | ⟨hw, p, hwrites⟩
  · rw [hidle]
    exact h
  · rw [hwrites.apply_eq hw]
    have helsewhere := (p.handled hw hwrites.valid).elsewhere
    intro relpath hmem
    rw [show (p.apply tx).observed store = tx.observed store from rfl] at hmem ⊢
    rw [getElem?_overlay]
    rw [contains_overlay] at hmem
    by_cases hother : relpath = p.relpath
    · subst hother
      have hrecord : (p.apply tx).records[keyOf p.relpath]?
          = some (p.record.map FileRecord.toJson) := by
        unfold Patch.apply
        exact Std.ExtTreeMap.getElem?_insert_self
      rw [hrecord]
      cases hnone : p.record with
      | some r => nofun
      | none =>
          exfalso
          rw [p.blobs_apply] at hmem
          rcases hwrites.record_none hnone with hblob | hstray
          · rw [hblob] at hmem
            cases hmem
          · -- nothing is committed or pending there
            have hblob : p.blob = none := by
              by_contra hne
              rw [hwrites.valid hne] at hstray
              cases hstray
            rw [hblob, Option.none_or, ← contains_overlay] at hmem
            rw [hvalid _ hmem] at hstray
            cases hstray
    · rw [helsewhere.blobs relpath hother, ← contains_overlay] at hmem
      rw [helsewhere.records _ fun heq => hother (keyOf_inj heq), ← getElem?_overlay]
      exact h relpath hmem

end Entry

namespace Site

variable {s t : Site} {who : Nat} {tx v : Transaction} {algo : Digest.Algo}

/-- What a transaction that views a site answers for the blob at a relpath. -/
theorem Kept.hasBlob_eq (hs : s.Kept) (h : s.Views v) (relpath : String) :
    v.hasBlob s.store relpath = (v.content? s.store relpath).isSome
      ∧ ∀ content, v.content? s.store relpath = some content →
        v.blobSize s.store relpath = .ok (some content.length) := by
  obtain ⟨view, hview, hstand⟩ := hs.view h
  unfold content?
  cases hpending : v.blobs[relpath]? with
  | some pending =>
      unfold hasBlob blobSize
      rw [hpending]
      refine ⟨rfl, fun content hcontent => ?_⟩
      dsimp only at hcontent
      rw [hcontent]
      rfl
  | none =>
      have hseen := seen_eq hview hpending hs.shelved.closed (hstand relpath)
      rw [observed_eq hview]
      dsimp only
      rw [show v.hasBlob s.store relpath = (v.seen s.store relpath).has from rfl,
        show v.blobSize s.store relpath = (v.seen s.store relpath).size from rfl, hseen]
      cases view.blobs.contains relpath with
      | false =>
          unfold Seen.absent
          refine ⟨?_, fun _ h => nomatch h⟩
          cases Relpath.isValid relpath <;> rfl
      | true =>
          simp only [↓reduceIte]
          unfold Tree.file?
          cases s.store.files.node? (Store.place relpath) with
          | none => exact ⟨rfl, fun _ h => nomatch h⟩
          | some node => cases node with
            | dir => exact ⟨rfl, fun _ h => nomatch h⟩
            | file content => exact ⟨rfl, fun _ h => by cases h; rfl⟩

/-- An entry is described just if it is served with the length of what is
seen. -/
theorem Kept.described_iff (hs : s.Kept) (h : s.Views v) (relpath : String) :
    v.Described s.store relpath ↔ ∀ algo e, Entry.load v s.store algo relpath = .ok (some e) →
      e.length? = (v.content? s.store relpath).map fun content => toString content.length := by
  obtain ⟨hhas, hsize⟩ := hs.hasBlob_eq h relpath
  unfold Described
  refine forall_congr' fun algo => forall_congr' fun e => imp_congr_right fun _ => ?_
  rw [hhas]
  unfold Entry.length?
  cases hcontent : v.content? s.store relpath with
  | none => simp
  | some content =>
      rw [hsize content hcontent]
      simp

end Site

-- ===================================================== commits

namespace Transaction

variable {tx : Transaction} {store after : Store} {q : Place}

/-- What a commit makes of the file at a place, if anything: one with some
content, or none. -/
def refiles (tx : Transaction) (store : Store) (q : Place) : Option (Option Bytes) :=
  if decide (tx.laid store = tx.staged) && tx.removals.any (empties store.filesRoot q) then
    some none
  else
    match (tx.laid store).foldl (shelve q) none with
    | some (.file content) => some (some content)
    | _ => none

/-- A transaction without changes leaves files alone. -/
theorem refiles_of_clean (h : tx.hasChanges = false) (q : Place) : tx.refiles store q = none := by
  have hlaid : tx.laid store = [] := by
    unfold laid
    rw [staged_eq_nil h]
    rfl
  unfold refiles
  rw [hlaid, removals_eq_nil h]
  simp

/-- The file at a place, from what lies there after a commit. -/
theorem file?_of_swept {makes : Bool} (hmakes : makes = true → store.files.node? q = none)
    (h : after.files.node? q = swept
      (decide (tx.laid store = tx.staged) && tx.removals.any (empties store.filesRoot q))
      ((tx.laid store).foldl (shelve q) (if makes then some .dir else store.files.node? q))) :
    after.files.file? q = (tx.refiles store q).getD (store.files.file? q) := by
  unfold refiles Tree.file?
  rw [h]
  generalize (decide (tx.laid store = tx.staged) && _) = emptied
  rcases foldl_shelve (tx.laid store) q with ⟨content, hput⟩ | ⟨-, hleft⟩
  · rw [hput, hput]
    cases emptied <;> rfl
  · rw [hleft, hleft]
    cases makes with
    | true =>
        rw [hmakes rfl]
        cases emptied <;> rfl
    | false =>
        cases store.files.node? q with
        | none => cases emptied <;> rfl
        | some node => cases node <;> cases emptied <;> rfl

/-- The files once a transaction has committed, or was refused to. -/
theorem file?_committed (hpends : tx.Pends) (hclosed : store.files.Closed)
    (h : (∃ ready, tx.Placed store ready ∧ after = Site.landed tx ready store.index)
      ∨ ∃ e, tx.Refused store after e) (q : Place) :
    after.files.file? q = (tx.refiles store q).getD (store.files.file? q) := by
  have hmakes : tx.makes store q = true → store.files.node? q = none :=
    fun h => (makes_spec hpends h).1
  refine file?_of_swept hmakes ?_
  rcases h with ⟨ready, hplaced, rfl⟩ | ⟨e, hrefused⟩
  · obtain ⟨hlaid, hall⟩ := hplaced.laid hpends
    have hready : ({ ready with index := tx.overlay store.index } : Store).files.Closed :=
      hlaid.closed hclosed
    have hroot : ready.filesRoot = store.filesRoot := by
      rw [hplaced.frame]
      rfl
    unfold Site.landed
    rw [node?_sweep hready hpends.removals, decide_eq_true hall, Bool.true_and]
    show swept (tx.removals.any (empties ready.filesRoot q)) (ready.files.node? q) = _
    rw [hlaid.node, hroot]
    rfl
  · obtain ⟨hlaid, -, hne⟩ := hrefused.laid hpends
    rw [hlaid.node, decide_eq_false hne, Bool.false_and]
    unfold laidAt
    generalize List.foldl _ _ _ = node
    cases node with
    | none => rfl
    | some node => cases node <;> rfl

/-- A commit that is not refused makes something of the file of every blob
that it sets. -/
theorem Placed.refiles_ne_none (h : tx.Placed store after) (hpends : tx.Pends) {relpath : String}
    {content : Bytes} (hblob : tx.blobs[relpath]? = some (some content)) :
    tx.refiles store (Store.place relpath) ≠ none := by
  obtain ⟨-, hall⟩ := h.laid hpends
  unfold refiles
  split
  · nofun
  · rcases foldl_shelve (tx.laid store) (Store.place relpath) with ⟨c, hput⟩ | ⟨hne, -⟩
    · rw [hput]
      nofun
    · have hmem := mem_staged.2 hblob
      rw [← hall] at hmem
      exact (hne _ hmem rfl).elim

end Transaction

namespace Site

variable {s t : Site} {who : Nat} {tx u v : Transaction} {algo : Digest.Algo}

/-- All entries that transactions find are described. -/
def AllDescribed (s : Site) : Prop :=
  ∀ v, s.Views v → ∀ relpath, v.Described s.store relpath

/-- What a commit, from one site to another, makes of files fits the
entries that transactions find with them. -/
def FitsFiles (tx : Transaction) (s t : Site) : Prop :=
  ∀ v, t.Views v → ∀ relpath algo e what, v.blobs[relpath]? = none →
    (v.observed t.store).blobs.contains relpath = true →
    Entry.load v t.store algo relpath = .ok (some e) →
    tx.refiles s.store (Store.place relpath) = some what →
    e.headers.lookup "content-length" = what.map fun content => toString content.length

/-- What holds at every site that requests lead to. -/
structure Paired (s : Site) : Prop where
  kept : s.Kept
  covered : ∀ v, s.Views v → v.Covered s.store

/-- The entries that `v` finds after a commit by `tx`, `u` found before, and
what `v` sees, too, unless it is what the commit has made of it. -/
structure Inherits (tx : Transaction) (s t : Site) (u v : Transaction) : Prop where
  load : ∀ relpath algo e, Entry.load v t.store algo relpath = .ok (some e) →
    Entry.load u s.store algo relpath = .ok (some e)
  content : ∀ relpath, v.content? t.store relpath = u.content? s.store relpath
    ∨ ∃ what, v.blobs[relpath]? = none
      ∧ (v.observed t.store).blobs.contains relpath = true
      ∧ tx.refiles s.store (Store.place relpath) = some what
      ∧ v.content? t.store relpath = what

/-- What a transaction sees of a relpath that is committed. -/
theorem content?_of_committed {store : Store} {relpath : String}
    (hpending : v.blobs[relpath]? = none)
    (hmem : (v.observed store).blobs.contains relpath = true) :
    v.content? store relpath = store.files.file? (Store.place relpath) := by
  unfold content?
  rw [hpending]
  exact if_pos hmem

theorem content?_of_uncommitted {store : Store} {relpath : String}
    (hpending : v.blobs[relpath]? = none)
    (hmem : (v.observed store).blobs.contains relpath = false) :
    v.content? store relpath = none := by
  unfold content?
  rw [hpending]
  exact if_neg (by simp [hmem])

/-- Who viewed the site before finds the same entries. -/
theorem inherits_self (hs : s.Kept) (h : s.Views v)
    (hfile : ∀ q, t.store.files.file? q
      = (tx.refiles s.store q).getD (s.store.files.file? q)) : Inherits tx s t v v := by
  obtain ⟨view, hview, -⟩ := hs.view h
  have hobserved : v.observed t.store = v.observed s.store := by
    rw [observed_eq hview, observed_eq hview]
  refine ⟨fun relpath algo e hload => ?_, fun relpath => ?_⟩
  · unfold Entry.load at hload ⊢
    rwa [(get_of_live (by rw [hview]; rfl) s.store t.store).1]
  · cases hpending : v.blobs[relpath]? with
    | some pending =>
        left
        unfold content?
        rw [hpending]
    | none =>
        cases hmem : (v.observed s.store).blobs.contains relpath with
        | false =>
            left
            rw [content?_of_uncommitted hpending hmem,
              content?_of_uncommitted hpending (by rw [hobserved, hmem])]
        | true =>
            have hmem' : (v.observed t.store).blobs.contains relpath = true := by
              rw [hobserved, hmem]
            have hnow := hfile (Store.place relpath)
            rw [content?_of_committed hpending hmem, content?_of_committed hpending hmem', hnow]
            cases hmade : tx.refiles s.store (Store.place relpath) with
            | none => exact .inl rfl
            | some what => exact .inr ⟨what, rfl, hmem', rfl, rfl⟩

/-- Who begins once a transaction has landed finds the entries that it
found. -/
theorem inherits_landed {after : Store} {n : UInt64} {writable : Bool} (hs : s.Kept)
    (hopen : s.opened who = some tx) (hwrites : tx.writable = true)
    (hplaced : tx.Placed s.store after) (hstore : t.store = landed tx after s.store.index)
    (hfile : ∀ q, t.store.files.file? q
      = (tx.refiles s.store q).getD (s.store.files.file? q)) :
    Inherits tx s t tx (fresh t.store n writable) := by
  have hview := ((hs.sane.fit who tx hopen).current hwrites).1
  have hpends := hs.shelved.pends who tx hopen
  have hindex : t.store.index = tx.overlay s.store.index := by rw [hstore]; rfl
  have hclean : ∀ relpath : String, (fresh t.store n writable).blobs[relpath]? = none := by
    intro relpath
    simp [fresh]
  have hmem : ∀ relpath : String,
      ((fresh t.store n writable).observed t.store).blobs.contains relpath
        = (tx.overlay s.store.index).blobs.contains relpath := by
    intro relpath
    rw [← hindex]
    rfl
  refine ⟨fun relpath algo e hload => ?_, fun relpath => ?_⟩
  · exact load_landed (hs.recorded who tx hopen) hview hload hindex
  · have hcontains := contains_overlay tx s.store.index relpath
    rw [← hmem] at hcontains
    have hnow := hfile (Store.place relpath)
    cases hpending : tx.blobs[relpath]? with
    | some pending =>
        rw [hpending] at hcontains
        cases pending with
        | none =>
            left
            rw [content?_of_uncommitted (hclean relpath) hcontains]
            unfold content?
            rw [hpending]
        | some content =>
            right
            cases hmade : tx.refiles s.store (Store.place relpath) with
            | none => exact absurd hmade (hplaced.refiles_ne_none hpends hpending)
            | some what =>
                rw [hmade] at hnow
                exact ⟨what, hclean relpath, hcontains, rfl,
                  (content?_of_committed (hclean relpath) hcontains).trans hnow⟩
    | none =>
        rw [hpending] at hcontains
        dsimp only at hcontains
        rw [← observed_eq hview s.store] at hcontains
        cases hcommitted : (tx.observed s.store).blobs.contains relpath with
        | false =>
            left
            rw [hcommitted] at hcontains
            rw [content?_of_uncommitted hpending hcommitted,
              content?_of_uncommitted (hclean relpath) hcontains]
        | true =>
            rw [hcommitted] at hcontains
            rw [content?_of_committed hpending hcommitted,
              content?_of_committed (hclean relpath) hcontains, hnow]
            cases hmade : tx.refiles s.store (Store.place relpath) with
            | none => exact .inl rfl
            | some what => exact .inr ⟨what, hclean relpath, hcontains, rfl, rfl⟩

/-- If all have been there before, a commit leads from a site where all is
described to such a site just if what it makes of files fits. -/
theorem described_iff_fitsFiles (hs : s.Kept) (ht : t.Kept) (hdescribed : s.AllDescribed)
    (hfile : ∀ q, t.store.files.file? q
      = (tx.refiles s.store q).getD (s.store.files.file? q))
    (hheirs : ∀ v, t.Views v → ∃ u, s.Views u ∧ Inherits tx s t u v) :
    t.AllDescribed ↔ FitsFiles tx s t := by
  constructor
  · intro h v hv relpath algo e what hpending hmem hload hmade
    have hlength := (ht.described_iff hv relpath).1 (h v hv relpath) algo e hload
    rw [content?_of_committed hpending hmem, hfile, hmade] at hlength
    exact hlength
  · intro h v hv relpath
    rw [ht.described_iff hv]
    intro algo e hload
    obtain ⟨u, hu, hheir⟩ := hheirs v hv
    rcases hheir.content relpath with hsame | ⟨what, hpending, hmem, hmade, hcontent⟩
    · rw [hsame]
      exact (hs.described_iff hu relpath).1 (hdescribed u hu relpath) algo e
        (hheir.load relpath algo e hload)
    · rw [hcontent]
      exact h v hv relpath algo e what hpending hmem hload hmade

-- ===================================================== one step

/-- A committed or pending relpath names a file. -/
theorem Kept.valid (hs : s.Kept) (hopen : s.opened who = some tx) (relpath : String)
    (hmem : (tx.overlay (tx.observed s.store)).blobs.contains relpath = true) :
    Relpath.isValid relpath = true := by
  obtain ⟨view, hview, hstand⟩ := hs.view (.inl ⟨who, hopen⟩)
  rw [contains_overlay, observed_eq hview] at hmem
  cases hpending : tx.blobs[relpath]? with
  | some pending => exact hs.shelved.pends who tx hopen relpath pending hpending
  | none =>
      rw [hpending] at hmem
      exact (hstand relpath hmem).valid

/-- Who has just begun has an index with nothing on top. -/
theorem covered_fresh_iff {store : Store} {n : UInt64} {writable : Bool} :
    (fresh store n writable).Covered store
      ↔ ∀ relpath, store.index.blobs.contains relpath = true →
          store.index.records[Entry.keyOf relpath]? ≠ none := by
  unfold Covered
  refine forall_congr' fun relpath => ?_
  rw [contains_overlay, getElem?_overlay]
  have hrecord : (fresh store n writable).records[Entry.keyOf relpath]? = none := by simp [fresh]
  have hblob : (fresh store n writable).blobs[relpath]? = none := by simp [fresh]
  rw [hrecord, hblob]
  rfl

/-- No request leaves a blob without a record. -/
theorem Paired.answer (hs : s.Paired) {r : Request} (h : s.answer algo who r = some t) :
    t.Paired := by
  refine ⟨hs.kept.answer h, hs.kept.views_answer (P := Covered) h ?_ ?_ ?_ hs.covered⟩
  · intro v store after hobserved hcovered
    unfold Covered at hcovered ⊢
    rw [hobserved]
    exact hcovered
  · intro c tx _ hopen hcovered
    exact c.covered algo hcovered (hs.kept.valid hopen)
  · intro tx n writable _ hview hindex hcovered
    rw [covered_fresh_iff, hindex]
    unfold Covered at hcovered
    rwa [observed_eq hview] at hcovered

/-- A call leads from a site where all is described to such a site just if
it is faithful. -/
theorem call_described_iff (hs : s.Paired) (hdescribed : s.AllDescribed)
    (hopen : s.opened who = some tx) (c : Entry.Call) (algo : Digest.Algo) :
    (s.settle s.store who (some (c.apply algo s.store tx))).AllDescribed
      ↔ c.Faithful algo s.store tx := by
  have hself : s.Views tx := .inl ⟨who, hopen⟩
  have htold : ∀ relpath algo e, Entry.load tx s.store algo relpath = .ok (some e) →
      e.length? = (tx.content? s.store relpath).map fun content => toString content.length :=
    fun relpath => (hs.kept.described_iff hself relpath).1 (hdescribed tx hself relpath)
  obtain ⟨relpath, hhandled⟩ := c.handled algo s.store tx
  have ht := hs.kept.use hopen hhandled
  have hthen : (s.settle s.store who (some (c.apply algo s.store tx))).Views
      (c.apply algo s.store tx) := .inl ⟨who, settle_opened_self _⟩
  rw [c.faithful_iff algo (hs.covered tx hself) htold]
  constructor
  · intro h hw p hwrites r algo' hrecord
    have hnow := (ht.described_iff hthen p.relpath).1 (h _ hthen p.relpath) algo'
    rw [hwrites.apply_eq hw] at hnow
    refine hnow _ ?_
    rw [settle_store, p.load_apply, hrecord]
    rfl
  · intro h v hv other
    rcases views_settle ht.sane hv with heq | hbefore | ⟨n, writable, hserial, rfl⟩
    · cases heq
      rcases c.idle_or_writes algo s.store tx with hidle | ⟨hw, p, hwrites⟩
      · rw [hidle]
        exact hdescribed tx hself other
      · rw [ht.described_iff hv, hwrites.apply_eq hw, settle_store]
        have helsewhere := (p.handled hw hwrites.valid).elsewhere
        intro algo' e hload
        by_cases hother : other = p.relpath
        · subst hother
          rw [p.load_apply] at hload
          obtain ⟨r, hrecord, rfl⟩ := Option.map_eq_some_iff.1 (Except.ok.inj hload)
          exact h hw p hwrites r algo' hrecord
        · -- nothing has changed there
          rw [helsewhere.load hother] at hload
          rw [helsewhere.content? hother]
          exact htold other algo' e hload
    · exact hdescribed v (.inl hbefore) other
    · exact hdescribed _ (views_fresh hserial writable) other

/-- A step that is no edit leads from a site where all is described to such
a site just if what it commits, if anything, fits. -/
theorem Move.described_iff {a : Action} {result : Except StoreError UInt64} (hs : s.Kept)
    (hdescribed : s.AllDescribed) (h : Move s who a result t) (ha : ∀ e, a ≠ .edit e) :
    t.AllDescribed ↔ ∀ tx ∈ s.lands who a, FitsFiles tx s t := by
  have ht := hs.move h ha
  cases h.shift hs ha with
  | idle hstore hviews hclean =>
      refine iff_of_true (fun v hv relpath => ?_)
        fun tx hmem v _ relpath algo e what _ _ _ hmade => ?_
      · rw [hstore]
        exact hdescribed v (hviews v hv) relpath
      · rw [refiles_of_clean (hclean tx hmem)] at hmade
        cases hmade
  | @commit tx hopen hwrites hlands hends hviews =>
      have hpends := hs.shelved.pends who tx hopen
      have hfile := file?_committed hpends hs.shelved.closed hends
      rw [hlands, described_iff_fitsFiles hs ht hdescribed hfile]
      · simp
      · intro v hv
        rcases hviews v hv with hbefore | ⟨after, n, writable, hplaced, hstore, rfl⟩
        · exact ⟨v, hbefore, inherits_self hs hbefore hfile⟩
        · exact ⟨tx, .inl ⟨who, hopen⟩,
            inherits_landed hs hopen hwrites hplaced hstore hfile⟩

-- ===================================================== runs

/-- A call leaves a record that fits the content beside it, and a commit
fits the entries that are found with its files. -/
def Round.Faithful (algo : Digest.Algo) (round : Round) : Prop :=
  match round.request with
  | .call c => ∀ tx, round.before.opened round.who = some tx →
      c.Faithful algo round.before.store tx
  | .manage a => ∀ tx ∈ round.before.lands round.who a, FitsFiles tx round.before round.after

theorem answer_described_iff (hs : s.Paired) (hdescribed : s.AllDescribed) {r : Request}
    (h : s.answer algo who r = some t) :
    t.AllDescribed ↔ Round.Faithful algo ⟨s, who, r, t⟩ := by
  rcases answer_cases hs.kept.sane h with ⟨c, tx, rfl, hopen, rfl⟩ | ⟨a, result, rfl, ha, hmove⟩
  · refine (call_described_iff hs hdescribed hopen c algo).trans ?_
    unfold Round.Faithful
    dsimp only
    rw [hopen]
    simp
  · exact hmove.described_iff hs.kept hdescribed ha

/-- At first there is neither a blob nor an entry. -/
theorem paired_empty (root cwd : String) :
    (empty root cwd).Paired ∧ (empty root cwd).AllDescribed := by
  have hnone : ∀ v, (empty root cwd).Views v →
      ∃ n writable, v = fresh (empty root cwd).store n writable := by
    intro v hv
    rcases hv.cases (sane_empty root cwd) with ⟨i, hi⟩ | ⟨n, writable, -, rfl⟩
    · cases hi
    · exact ⟨n, writable, rfl⟩
  refine ⟨⟨kept_empty root cwd, fun v hv => ?_⟩, fun v hv relpath algo e hload => ?_⟩
  · obtain ⟨n, writable, rfl⟩ := hnone v hv
    rw [covered_fresh_iff]
    intro relpath hmem
    simp [empty] at hmem
  · obtain ⟨n, writable, rfl⟩ := hnone v hv
    unfold Entry.load Transaction.get observed at hload
    simp [fresh, empty] at hload

/-- Rounds start from what the first site of a run has, if each of them keeps
it that is as rounds of the run are. -/
theorem rounds_induct {P : Site → Prop} {Q : Round → Prop} {requests : List (Nat × Request)}
    (hstep : ∀ s who r t, P s → s.answer algo who r = some t → Q ⟨s, who, r, t⟩ → P t)
    (hs : P s) (h : ∀ round ∈ s.rounds algo requests, Q round) :
    ∀ round ∈ s.rounds algo requests,
      P round.before ∧ round.before.answer algo round.who round.request = some round.after := by
  induction requests generalizing s with
  | nil => exact List.forall_mem_nil _
  | cons request rest ih =>
      obtain ⟨who, r⟩ := request
      unfold rounds at h ⊢
      split at h
      · next t hanswer =>
        obtain ⟨hfirst, hrest⟩ := List.forall_mem_cons.1 h
        exact List.forall_mem_cons.2 ⟨⟨hs, hanswer⟩, ih (hstep s who r t hs hanswer hfirst) hrest⟩
      · exact ih hs h

/-- If rounds of a kind keep all described, all is described throughout a run
of such rounds. -/
theorem rounds_described {Q : Round → Prop} {requests : List (Nat × Request)}
    (hstep : ∀ s who r t, s.Paired → s.AllDescribed → s.answer algo who r = some t →
      Q ⟨s, who, r, t⟩ → t.AllDescribed)
    (hs : s.Paired) (hdescribed : s.AllDescribed) (h : ∀ round ∈ s.rounds algo requests, Q round) :
    ∀ round ∈ s.rounds algo requests, round.after.AllDescribed ∧ round.Faithful algo := by
  intro round hmem
  obtain ⟨⟨hpaired, hbefore⟩, hanswer⟩ := rounds_induct (P := fun s => s.Paired ∧ s.AllDescribed)
    (fun s who r t hs hanswer hround => ⟨hs.1.answer hanswer,
      hstep s who r t hs.1 hs.2 hanswer hround⟩) ⟨hs, hdescribed⟩ h round hmem
  have hafter := hstep _ _ _ _ hpaired hbefore hanswer (h round hmem)
  exact ⟨hafter, (answer_described_iff hpaired hbefore hanswer).1 hafter⟩

/-- All is described throughout a run just if each of its steps is
faithful, up to the first that is not. -/
theorem rounds_described_iff (hs : s.Paired) (hdescribed : s.AllDescribed)
    (requests : List (Nat × Request)) :
    (∀ round ∈ s.rounds algo requests, round.after.AllDescribed)
      ↔ ∀ round ∈ s.rounds algo requests, round.Faithful algo := by
  constructor
  · intro h round hmem
    exact (rounds_described (fun _ _ _ _ _ _ _ hafter => hafter) hs hdescribed h round hmem).2
  · intro h round hmem
    refine (rounds_described (fun s who r t hs hdescribed hanswer hfaithful => ?_) hs hdescribed h
      round hmem).1
    exact (answer_described_iff hs hdescribed hanswer).2 hfaithful

/-- In a run on a store that is empty at first, every entry that any
transaction finds is always served with the length of its content, and
without one if there is none, just if each call leaves a record that fits
the content beside it and each commit fits the entries that are found with
its files. -/
theorem described_iff_faithful (algo : Digest.Algo) (root cwd : String)
    (requests : List (Nat × Request)) :
    (∀ round ∈ (empty root cwd).rounds algo requests, round.after.AllDescribed)
      ↔ ∀ round ∈ (empty root cwd).rounds algo requests, round.Faithful algo :=
  rounds_described_iff (paired_empty root cwd).1 (paired_empty root cwd).2 requests

set_option maxRecDepth 20000 in
/-- A length that was captured is served with content that came without
one. -/
theorem undescribed_after_silence : ∃ requests round v e,
    round ∈ (empty "depot" "/").rounds .sha256 requests ∧ round.after.Views v
    ∧ Entry.load v round.after.store .sha256 "+e/pypi.example/x" = .ok (some e)
    ∧ v.hasBlob round.after.store "+e/pypi.example/x" = true
    ∧ v.blobSize round.after.store "+e/pypi.example/x" = .ok (some 2)
    ∧ e.headers.lookup "content-length" = some "1" ∧ ¬round.after.AllDescribed := by
  have hrounds : (empty "depot" "/").rounds .sha256
      [(0, .manage (.begin true)), (0, .call (.use (.map "https://pypi.example/x#egg=x"))),
        (0, .call (.use (.fetch ⟨"+e/pypi.example/x",
            { egg := some "x", url := some "https://pypi.example/x" }, .sha256⟩
          (fun _ => .ok ⟨200, { contentLength := some "1" }, [.data [79]]⟩) "now" none))),
        (0, .call (.use (.fetch ⟨"+e/pypi.example/x",
            { egg := some "x", url := some "https://pypi.example/x", size := some 1,
              contentLength := some "1", lastModified := some "now" }, .sha256⟩
          (fun _ => .ok ⟨200, {}, [.data [79, 80]]⟩) "now" none)))]
      = [_, _, _, _] := rfl
  have hlast := List.mem_of_getLast? (congrArg List.getLast? hrounds)
  refine ⟨_, _, _, ⟨"+e/pypi.example/x",
    { egg := some "x", url := some "https://pypi.example/x", size := some 2,
      contentLength := some "1", lastModified := some "now" }, .sha256⟩,
    hlast, .inl ⟨0, rfl⟩, rfl, rfl, rfl, rfl, fun h => ?_⟩
  obtain ⟨htold, -⟩ := h _ (.inl ⟨0, rfl⟩) "+e/pypi.example/x" .sha256 _ rfl
  obtain ⟨n, hn, hlength⟩ := htold rfl
  obtain rfl : 2 = n := Option.some.inj (Except.ok.inj hn)
  have htext : some "1" = some (toString 2) := hlength
  exact absurd htext (by decide)

end Site

end Depot
