/-
Everything that is done to entries: the operations of `Entry.Op`, and
setting content, digest, URL and date through a handle. A call that is not
refused writes one `Patch`, which is the record of one relpath and what
becomes of the blob beside it; `Call.Writes` says what each call writes
and when, and `Call.idle_or_writes` that calls do nothing else.
-/
import Depot.Proofs.Store.Cacheable
import Depot.Proofs.Store.Verified

namespace Depot

open Transaction

/-- The record beside content that is set. -/
def FileRecord.holding (r : FileRecord) (content : Bytes) (date : String) : FileRecord :=
  { r with size := some content.length, lastModified := some date }

/-- The record beside content that is deleted. -/
def FileRecord.cleared (r : FileRecord) : FileRecord :=
  { r with size := none, contentLength := none }

namespace Entry

/-- What can be done to entries. -/
inductive Call where
  | use (op : Op)
  | setContent (e : Entry) (content : Bytes) (date : String)
  | setHash (e : Entry) (spec : Option HashSpec)
  | setUrl (e : Entry) (url : String)
  | setLastModified (e : Entry) (date : String)

/-- The transaction after a call, which may be refused. -/
def Call.apply (algo : Digest.Algo) (store : Store) (tx : Transaction) : Call → Transaction
  | .use op => op.apply algo store tx
  | .setContent e content date => (e.setContent tx content date).tx
  | .setHash e spec => (e.setHash tx spec).tx
  | .setUrl e url => (e.setUrl tx url).tx
  | .setLastModified e date => (e.setLastModified tx date).tx

/-- A change of one entry. -/
structure Patch where
  relpath : String
  /-- The record that there is then. -/
  record : Option FileRecord
  /-- The blob that there is then, if that changes. -/
  blob : Option (Option Bytes)

/-- The transaction with the change in it. -/
def Patch.apply (p : Patch) (tx : Transaction) : Transaction :=
  { tx with
    records := tx.records.insert (keyOf p.relpath) (p.record.map FileRecord.toJson)
    blobs := match p.blob with
      | none => tx.blobs
      | some content => tx.blobs.insert p.relpath content }

variable {algo : Digest.Algo} {store : Store} {tx : Transaction} {e : Entry}

/-- What a call writes, if the transaction may write. -/
inductive Call.Writes (algo : Digest.Algo) (store : Store) (tx : Transaction) :
    Call → Patch → Prop
  | map {raw : String} {link : Link} {found : Option Entry} (hlink : Link.parse raw = .ok link)
      (hload : load tx store algo link.relpath = .ok found)
      (hnew : found.isNone ∨ describedBy link ((found.map (·.record)).getD {})
        ≠ (found.map (·.record)).getD {}) :
      Writes algo store tx (.use (.map raw))
        ⟨link.relpath, some (describedBy link ((found.map (·.record)).getD {})), none⟩
  | fetch {e : Entry} {web : Web} {now source : String} {url : Option String} {d : Download}
      (hsource : e.target tx url = .ok source) (hdownload : e.download web source = .ok d)
      (hvalid : Relpath.isValid e.relpath = true) :
      Writes algo store tx (.use (.fetch e web now url))
        ⟨e.relpath, some ((e.withDownload source d).record.holding d.content
          ((d.headers.lastModified <|> e.record.lastModified).getD now)), some (some d.content)⟩
  /-- What was there is deleted. -/
  | fetchDamaged {e : Entry} {web : Web} {now source : String} {url : Option String}
      {err : FetchError} (hsource : e.target tx url = .ok source)
      (hdownload : e.download web source = .error err) (hdamage : isDamage err = true)
      (hvalid : Relpath.isValid e.relpath = true) :
      Writes algo store tx (.use (.fetch e web now url))
        ⟨e.relpath, some e.record.cleared, some none⟩
  | upload {now user index basename : String} {content : Bytes} {e : Entry}
      (hnames : isUpload user index basename = true)
      (hload : loadOrNew tx store algo
        (Relpath.ofUpload user index (HashSpec.ofContent algo content) basename) = .ok e)
      (hvalid : Relpath.isValid e.relpath = true) :
      Writes algo store tx (.use (.upload now user index basename content))
        ⟨e.relpath, some ({ e.record with
          hash := some (HashSpec.ofContent algo content).toText }.holding content now),
          some (some content)⟩
  | deleteContent {e : Entry} (hvalid : Relpath.isValid e.relpath = true) :
      Writes algo store tx (.use (.deleteContent e)) ⟨e.relpath, some e.record.cleared, some none⟩
  | delete {e : Entry} (hvalid : Relpath.isValid e.relpath = true) :
      Writes algo store tx (.use (.delete e)) ⟨e.relpath, none, some none⟩
  /-- Where there can be no content the record is deleted all the same. -/
  | deleteStray {e : Entry} (hvalid : Relpath.isValid e.relpath = false) :
      Writes algo store tx (.use (.delete e)) ⟨e.relpath, none, none⟩
  | setContent {e : Entry} {content : Bytes} {date : String}
      (hvalid : Relpath.isValid e.relpath = true) :
      Writes algo store tx (.setContent e content date)
        ⟨e.relpath, some (e.record.holding content date), some (some content)⟩
  | setHash (e : Entry) (spec : Option HashSpec) :
      Writes algo store tx (.setHash e spec)
        ⟨e.relpath, some { e.record with hash := spec.map HashSpec.toText }, none⟩
  | setUrl (e : Entry) (url : String) :
      Writes algo store tx (.setUrl e url)
        ⟨e.relpath, some { e.record with url := some url }, none⟩
  | setLastModified (e : Entry) (date : String) :
      Writes algo store tx (.setLastModified e date)
        ⟨e.relpath, some { e.record with lastModified := some date }, none⟩

-- ===================================================== refusals

theorem save_of_reader (h : tx.writable = false) (e : Entry) :
    e.save tx = ⟨e, tx, .error .readOnly⟩ := by
  unfold save persist Transaction.set change
  rw [h]
  rfl

theorem save_of_error {err : StoreError} (h : (e.save tx).result = .error err) :
    e.save tx = ⟨e, tx, .error err⟩ := by
  unfold save at h ⊢
  cases hpersist : e.persist tx with
  | ok t =>
      rw [hpersist] at h
      cases h
  | error cause =>
      rw [hpersist] at h
      cases h
      rfl

theorem changeBlob_of_reader (h : tx.writable = false) (relpath : String)
    (content : Option Bytes) : tx.changeBlob relpath content = .error .readOnly := by
  unfold changeBlob
  rw [h]
  rfl

/-- Content that is refused has its size and date in the handle by then. -/
theorem setContent_of_refused {content : Bytes} {err : StoreError}
    (h : tx.changeBlob e.relpath (some content) = .error err) (date : String) :
    e.setContent tx content date
      = ⟨{ e with record := e.record.holding content date }, tx, .error err⟩ := by
  unfold setContent setBlob
  dsimp only
  rw [h]
  rfl

theorem deleteContent_of_refused {err : StoreError}
    (h : tx.changeBlob e.relpath none = .error err) :
    e.deleteContent tx = ⟨e, tx, .error err⟩ := by
  unfold deleteContent deleteBlob
  rw [h]

theorem ofLink_of_reader {link : Link} {t : Transaction} (h : tx.writable = false)
    (hmap : ofLink tx store algo link = .ok (e, t)) : t = tx := by
  unfold ofLink at hmap
  split at hmap
  · cases hmap
  · dsimp only at hmap
    rw [if_neg (by simp [h])] at hmap
    cases hmap
    rfl

theorem upload_of_reader (h : tx.writable = false) (now user index basename : String)
    (content : Bytes) (r : Entry × Transaction) :
    upload tx store algo now user index basename content ≠ .ok r := by
  intro hupload
  unfold upload at hupload
  split at hupload
  · cases hupload
  · dsimp only at hupload
    split at hupload
    · cases hupload
    · rw [setContent_of_refused (changeBlob_of_reader h _ _)] at hupload
      cases hupload

/-- A call changes nothing where the transaction may not write. -/
theorem Call.apply_of_reader (h : tx.writable = false) (c : Call) :
    c.apply algo store tx = tx := by
  cases c with
  | use op =>
      cases op with
      | map raw =>
          unfold apply Op.apply
          dsimp only
          split
          · rfl
          · split
            · next hmap => exact ofLink_of_reader h hmap
            · rfl
      | fetch e web now url =>
          unfold apply Op.apply Entry.fetch target
          dsimp only
          rw [h]
          cases url <|> e.record.url <;> rfl
      | upload now user index basename content =>
          unfold apply Op.apply
          dsimp only
          split
          · next hupload =>
              exact absurd hupload (upload_of_reader h now user index basename content _)
          · rfl
      | deleteContent e =>
          unfold apply Op.apply
          dsimp only
          rw [deleteContent_of_refused (changeBlob_of_reader h _ _)]
      | delete e =>
          unfold apply Op.apply Entry.delete Transaction.delete change
          dsimp only
          rw [h]
          rfl
  | setContent e content date =>
      exact congrArg Step.tx (setContent_of_refused (changeBlob_of_reader h _ _) date)
  | setHash | setUrl | setLastModified => exact congrArg Step.tx (save_of_reader h _)

-- ===================================================== what is written

theorem save_eq (hw : tx.writable = true) (e : Entry) :
    e.save tx = ⟨e, Patch.apply ⟨e.relpath, some e.record, none⟩ tx, .ok ()⟩ := by
  unfold save persist Transaction.set
  rw [change_of_writable hw]
  rfl

theorem setContent_eq (hw : tx.writable = true) (hvalid : Relpath.isValid e.relpath = true)
    (content : Bytes) (date : String) :
    e.setContent tx content date = ⟨{ e with record := e.record.holding content date },
      Patch.apply ⟨e.relpath, some (e.record.holding content date), some (some content)⟩ tx,
      .ok ()⟩ := by
  unfold setContent setBlob
  dsimp only
  rw [changeBlob_valid hw hvalid]
  dsimp only
  rw [save_eq (by exact hw)]
  rfl

/-- An upload under plain names, to a relpath of which the record can be
read, sets the content and declares its digest. -/
theorem upload_eq (hw : tx.writable = true) {now user index basename : String} {content : Bytes}
    (hnames : isUpload user index basename = true)
    (hload : loadOrNew tx store algo
      (Relpath.ofUpload user index (HashSpec.ofContent algo content) basename) = .ok e)
    (hvalid : Relpath.isValid e.relpath = true) :
    upload tx store algo now user index basename content
      = .ok ({ e with record := { e.record with
            hash := some (HashSpec.ofContent algo content).toText }.holding content now },
          Patch.apply ⟨e.relpath, some ({ e.record with
            hash := some (HashSpec.ofContent algo content).toText }.holding content now),
            some (some content)⟩ tx) := by
  have hset := setContent_eq (e := { e with record := { e.record with
    hash := some (HashSpec.ofContent algo content).toText } }) hw hvalid content now
  unfold upload
  rw [if_neg (by simp [hnames])]
  dsimp only
  rw [hload]
  dsimp only
  rw [hset]
  rfl

theorem deleteContent_eq (hw : tx.writable = true) (hvalid : Relpath.isValid e.relpath = true) :
    e.deleteContent tx = ⟨{ e with record := e.record.cleared },
      Patch.apply ⟨e.relpath, some e.record.cleared, some none⟩ tx, .ok ()⟩ := by
  unfold deleteContent deleteBlob
  rw [changeBlob_valid hw hvalid]
  dsimp only
  rw [save_eq (by exact hw)]
  rfl

theorem delete_eq (hw : tx.writable = true) (hvalid : Relpath.isValid e.relpath = true) :
    e.delete tx = ⟨e, Patch.apply ⟨e.relpath, none, some none⟩ tx, .ok ()⟩ := by
  unfold Entry.delete Transaction.delete deleteBlob
  rw [change_of_writable hw]
  dsimp only
  rw [changeBlob_valid (by exact hw) hvalid]
  rfl

/-- Where there can be no content the record is deleted first. -/
theorem delete_of_stray (hw : tx.writable = true) (hvalid : Relpath.isValid e.relpath = false) :
    e.delete tx = ⟨e, Patch.apply ⟨e.relpath, none, none⟩ tx,
      .error (.invalidRelpath e.relpath)⟩ := by
  unfold Entry.delete Transaction.delete deleteBlob
  rw [change_of_writable hw]
  dsimp only
  rw [changeBlob_invalid (by exact hw) hvalid]
  rfl

/-- Only a transaction that may write gets to asking. -/
theorem writable_of_target {url : Option String} {source : String}
    (h : e.target tx url = .ok source) : tx.writable = true := by
  unfold target at h
  split at h
  · cases h
  · by_contra hnot
    rw [if_neg hnot] at h
    cases h

theorem fetch_of_damaged {web : Web} {url : Option String} {source : String} {err : FetchError}
    (hsource : e.target tx url = .ok source) (hdownload : e.download web source = .error err)
    (hdamage : isDamage err = true) (hvalid : Relpath.isValid e.relpath = true) (now : String) :
    e.fetch tx web now url = ⟨{ e with record := e.record.cleared },
      Patch.apply ⟨e.relpath, some e.record.cleared, some none⟩ tx, .error err⟩ := by
  rw [fetch_of_error hsource hdownload, if_pos hdamage,
    deleteContent_eq (writable_of_target hsource) hvalid]
  rfl

theorem fetch_of_taken {web : Web} {url : Option String} {source : String} {d : Download}
    (hsource : e.target tx url = .ok source) (hdownload : e.download web source = .ok d)
    (hvalid : Relpath.isValid e.relpath = true) (now : String) :
    let record := (e.withDownload source d).record.holding d.content
      ((d.headers.lastModified <|> e.record.lastModified).getD now)
    e.fetch tx web now url = ⟨{ e with record },
      Patch.apply ⟨e.relpath, some record, some (some d.content)⟩ tx, .ok ()⟩ := by
  rw [fetch_of_ok hsource hdownload,
    setContent_eq (e := e.withDownload source d) (writable_of_target hsource) hvalid]
  rfl

theorem fetch_of_stray {web : Web} {url : Option String} {source : String} {d : Download}
    (hsource : e.target tx url = .ok source) (hdownload : e.download web source = .ok d)
    (hvalid : Relpath.isValid e.relpath = false) (now : String) :
    let record := (e.withDownload source d).record.holding d.content
      ((d.headers.lastModified <|> e.record.lastModified).getD now)
    e.fetch tx web now url
      = ⟨{ e with record }, tx, .error (.store (.invalidRelpath e.relpath))⟩ := by
  rw [fetch_of_ok hsource hdownload, setContent_of_refused (e := e.withDownload source d)
    (changeBlob_invalid (writable_of_target hsource) hvalid _)]
  rfl

/-- What a fetch comes to. -/
inductive Fetched (e : Entry) (tx : Transaction) (web : Web) (now : String)
    (url : Option String) : Step FetchError → Prop
  /-- Nothing is asked for. -/
  | unasked {err : FetchError} (hsource : e.target tx url = .error err) :
      Fetched e tx web now url ⟨e, tx, .error err⟩
  /-- What came has nothing to do with what there is. -/
  | spared {source : String} {err : FetchError} (hsource : e.target tx url = .ok source)
      (hdownload : e.download web source = .error err) (hdamage : isDamage err = false) :
      Fetched e tx web now url ⟨e, tx, .error err⟩
  /-- What there was is deleted. -/
  | damaged {source : String} {err : FetchError} (hsource : e.target tx url = .ok source)
      (hdownload : e.download web source = .error err) (hdamage : isDamage err = true)
      (hvalid : Relpath.isValid e.relpath = true) :
      Fetched e tx web now url ⟨{ e with record := e.record.cleared },
        Patch.apply ⟨e.relpath, some e.record.cleared, some none⟩ tx, .error err⟩
  | damagedStray {source : String} {err : FetchError} (hsource : e.target tx url = .ok source)
      (hdownload : e.download web source = .error err) (hdamage : isDamage err = true)
      (hvalid : Relpath.isValid e.relpath = false) :
      Fetched e tx web now url ⟨e, tx, .error (.store (.invalidRelpath e.relpath))⟩
  /-- What came is taken in. -/
  | taken {source : String} {d : Download} {record : FileRecord}
      (hsource : e.target tx url = .ok source) (hdownload : e.download web source = .ok d)
      (hrecord : record = (e.withDownload source d).record.holding d.content
        ((d.headers.lastModified <|> e.record.lastModified).getD now))
      (hvalid : Relpath.isValid e.relpath = true) :
      Fetched e tx web now url ⟨{ e with record },
        Patch.apply ⟨e.relpath, some record, some (some d.content)⟩ tx, .ok ()⟩
  /-- What came has no place, but is in the record of the handle by then. -/
  | takenStray {source : String} {d : Download} {record : FileRecord}
      (hsource : e.target tx url = .ok source) (hdownload : e.download web source = .ok d)
      (hrecord : record = (e.withDownload source d).record.holding d.content
        ((d.headers.lastModified <|> e.record.lastModified).getD now))
      (hvalid : Relpath.isValid e.relpath = false) :
      Fetched e tx web now url
        ⟨{ e with record }, tx, .error (.store (.invalidRelpath e.relpath))⟩

/-- A fetch comes to nothing else. -/
theorem fetch_cases (e : Entry) (tx : Transaction) (web : Web) (now : String)
    (url : Option String) : Fetched e tx web now url (e.fetch tx web now url) := by
  cases hsource : e.target tx url with
  | error err =>
      unfold Entry.fetch
      rw [hsource]
      exact .unasked hsource
  | ok source =>
      have hw := writable_of_target hsource
      cases hdownload : e.download web source with
      | error err =>
          cases hdamage : isDamage err with
          | false =>
              rw [fetch_of_error hsource hdownload, hdamage]
              exact .spared hsource hdownload hdamage
          | true =>
              cases hvalid : Relpath.isValid e.relpath with
              | true =>
                  rw [fetch_of_damaged hsource hdownload hdamage hvalid]
                  exact .damaged hsource hdownload hdamage hvalid
              | false =>
                  rw [fetch_of_error hsource hdownload, hdamage,
                    deleteContent_of_refused (changeBlob_invalid hw hvalid none)]
                  exact .damagedStray hsource hdownload hdamage hvalid
      | ok d =>
          cases hvalid : Relpath.isValid e.relpath with
          | true =>
              rw [fetch_of_taken hsource hdownload hvalid]
              exact .taken hsource hdownload rfl hvalid
          | false =>
              rw [fetch_of_stray hsource hdownload hvalid]
              exact .takenStray hsource hdownload rfl hvalid

/-- A call does what it is said to write. -/
theorem Call.Writes.apply_eq {c : Call} {p : Patch} (h : Writes algo store tx c p)
    (hw : tx.writable = true) : c.apply algo store tx = p.apply tx := by
  unfold Call.apply
  cases h with
  | map hlink hload hnew =>
      unfold Op.apply ofLink persist Transaction.set
      dsimp only
      rw [hlink]
      dsimp only
      rw [hload]
      dsimp only
      rw [if_pos ⟨hw, hnew⟩, change_of_writable hw]
      rfl
  | fetch hsource hdownload hvalid =>
      exact congrArg Step.tx (fetch_of_taken hsource hdownload hvalid _)
  | fetchDamaged hsource hdownload hdamage hvalid =>
      exact congrArg Step.tx (fetch_of_damaged hsource hdownload hdamage hvalid _)
  | upload hnames hload hvalid =>
      unfold Op.apply
      dsimp only
      rw [upload_eq hw hnames hload hvalid]
  | deleteContent hvalid =>
      unfold Op.apply
      dsimp only
      rw [deleteContent_eq hw hvalid]
  | delete hvalid => exact congrArg Step.tx (delete_eq hw hvalid)
  | deleteStray hvalid => exact congrArg Step.tx (delete_of_stray hw hvalid)
  | setContent hvalid =>
      dsimp only
      rw [setContent_eq hw hvalid]
  | setHash e spec =>
      unfold Entry.setHash
      dsimp only
      rw [save_eq hw]
  | setUrl e url =>
      unfold Entry.setUrl
      dsimp only
      rw [save_eq hw]
  | setLastModified e date =>
      unfold Entry.setLastModified
      dsimp only
      rw [save_eq hw]

theorem map_idle_or_writes (algo : Digest.Algo) (store : Store) (tx : Transaction)
    (raw : String) :
    (Call.use (.map raw)).apply algo store tx = tx
      ∨ ∃ p, Call.Writes algo store tx (.use (.map raw)) p := by
  cases hlink : Link.parse raw with
  | error err =>
      unfold Call.apply Op.apply
      dsimp only
      rw [hlink]
      exact .inl rfl
  | ok link =>
      cases hload : load tx store algo link.relpath with
      | error err =>
          unfold Call.apply Op.apply ofLink
          dsimp only
          rw [hlink]
          dsimp only
          rw [hload]
          exact .inl rfl
      | ok found =>
          by_cases hnew : found.isNone ∨ describedBy link ((found.map (·.record)).getD {})
              ≠ (found.map (·.record)).getD {}
          · exact .inr ⟨_, .map hlink hload hnew⟩
          · unfold Call.apply Op.apply ofLink
            dsimp only
            rw [hlink]
            dsimp only
            rw [hload]
            dsimp only
            rw [if_neg fun h => hnew h.2]
            exact .inl rfl

theorem fetch_idle_or_writes (algo : Digest.Algo) (store : Store) (tx : Transaction)
    (e : Entry) (web : Web) (now : String) (url : Option String) :
    (Call.use (.fetch e web now url)).apply algo store tx = tx
      ∨ ∃ p, Call.Writes algo store tx (.use (.fetch e web now url)) p := by
  have hfetched := fetch_cases e tx web now url
  show (e.fetch tx web now url).tx = tx ∨ _
  generalize e.fetch tx web now url = step at hfetched
  cases hfetched with
  | unasked | spared | damagedStray | takenStray => exact .inl rfl
  | damaged hsource hdownload hdamage hvalid =>
      exact .inr ⟨_, .fetchDamaged hsource hdownload hdamage hvalid⟩
  | taken hsource hdownload hrecord hvalid => exact .inr ⟨_, .fetch hsource hdownload hvalid⟩

theorem upload_idle_or_writes (store : Store) (hw : tx.writable = true)
    (now user index basename : String) (content : Bytes) :
    (Call.use (.upload now user index basename content)).apply algo store tx = tx
      ∨ ∃ p, Call.Writes algo store tx (.use (.upload now user index basename content)) p := by
  cases hnames : isUpload user index basename with
  | false =>
      unfold Call.apply Op.apply Entry.upload
      dsimp only
      rw [hnames]
      exact .inl rfl
  | true =>
      cases hload : loadOrNew tx store algo
          (Relpath.ofUpload user index (HashSpec.ofContent algo content) basename) with
      | error err =>
          unfold Call.apply Op.apply Entry.upload
          dsimp only
          rw [if_neg (by simp [hnames]), hload]
          exact .inl rfl
      | ok e =>
          cases hvalid : Relpath.isValid e.relpath with
          | true => exact .inr ⟨_, .upload hnames hload hvalid⟩
          | false =>
              have hset := setContent_refused (e := { e with record := { e.record with
                hash := some (HashSpec.ofContent algo content).toText } }) hw hvalid content now
              unfold Call.apply Op.apply Entry.upload
              dsimp only
              rw [if_neg (by simp [hnames]), hload]
              dsimp only
              rw [hset]
              exact .inl rfl

/-- A call writes something, or does nothing. -/
theorem Call.idle_or_writes (algo : Digest.Algo) (store : Store) (tx : Transaction) (c : Call) :
    c.apply algo store tx = tx ∨ (tx.writable = true ∧ ∃ p, Writes algo store tx c p) := by
  cases hw : tx.writable with
  | false => exact .inl (apply_of_reader hw c)
  | true =>
      refine Or.imp_right (fun hwrites => ⟨rfl, hwrites⟩) ?_
      cases c with
      | use op =>
          cases op with
          | map raw => exact map_idle_or_writes algo store tx raw
          | fetch e web now url => exact fetch_idle_or_writes algo store tx e web now url
          | upload now user index basename content =>
              exact upload_idle_or_writes store hw now user index basename content
          | deleteContent e =>
              cases hvalid : Relpath.isValid e.relpath with
              | true => exact .inr ⟨_, .deleteContent hvalid⟩
              | false =>
                  exact .inl (congrArg Step.tx
                    (deleteContent_of_refused (changeBlob_invalid hw hvalid none)))
          | delete e =>
              cases hvalid : Relpath.isValid e.relpath with
              | true => exact .inr ⟨_, .delete hvalid⟩
              | false => exact .inr ⟨_, .deleteStray hvalid⟩
      | setContent e content date =>
          cases hvalid : Relpath.isValid e.relpath with
          | true => exact .inr ⟨_, .setContent hvalid⟩
          | false =>
              exact .inl (congrArg Step.tx
                (setContent_of_refused (changeBlob_invalid hw hvalid _) date))
      | setHash e spec => exact .inr ⟨_, .setHash e spec⟩
      | setUrl e url => exact .inr ⟨_, .setUrl e url⟩
      | setLastModified e date => exact .inr ⟨_, .setLastModified e date⟩

-- ===================================================== what a patch changes

/-- A blob changes only at a relpath that names a file. -/
theorem Call.Writes.valid {c : Call} {p : Patch} (h : Writes algo store tx c p)
    (hblob : p.blob ≠ none) : Relpath.isValid p.relpath = true := by
  cases h with
  | fetch _ _ hvalid | fetchDamaged _ _ _ hvalid | upload _ _ hvalid | deleteContent hvalid
  | delete hvalid | setContent hvalid => exact hvalid
  | map | deleteStray | setHash | setUrl | setLastModified => exact absurd rfl hblob

/-- A patch changes one entry. -/
theorem Patch.handled (p : Patch) (hw : tx.writable = true)
    (hvalid : p.blob ≠ none → Relpath.isValid p.relpath = true) :
    Handled p.relpath tx (p.apply tx) := by
  obtain ⟨relpath, record, blob⟩ := p
  have hrecord : Handled relpath tx (Patch.apply ⟨relpath, record, none⟩ tx) := by
    cases record with
    | some r => exact .record r .refl (change_of_writable hw _ _)
    | none => exact .forget .refl (change_of_writable hw _ _)
  cases blob with
  | none => exact hrecord
  | some content => exact .blob content hrecord (changeBlob_valid (by exact hw) (hvalid nofun) _)

/-- The record that is found then. -/
theorem Patch.get_apply (p : Patch) (tx : Transaction) (store : Store) :
    (p.apply tx).get store (keyOf p.relpath) = .ok (p.record.map FileRecord.toJson) := by
  have hrecord : (p.apply tx).records[keyOf p.relpath]?
      = some (p.record.map FileRecord.toJson) := by
    unfold Patch.apply
    exact Std.ExtTreeMap.getElem?_insert_self
  unfold Transaction.get
  rw [hrecord]

/-- The entry that is found then. -/
theorem Patch.load_apply (p : Patch) (tx : Transaction) (store : Store) (algo : Digest.Algo) :
    load (p.apply tx) store algo p.relpath
      = .ok (p.record.map fun r => ⟨p.relpath, r, algo⟩) := by
  unfold load
  rw [p.get_apply]
  cases p.record with
  | none => rfl
  | some r =>
      unfold readRecord
      dsimp only [Option.map_some]
      rw [r.ofJson?_toJson]
      rfl

/-- The blob that is pending then. -/
theorem Patch.blobs_apply (p : Patch) (tx : Transaction) :
    (p.apply tx).blobs[p.relpath]? = p.blob.or tx.blobs[p.relpath]? := by
  unfold Patch.apply
  cases p.blob with
  | none => rfl
  | some content => exact Std.ExtTreeMap.getElem?_insert_self

/-- The content that is seen then, if that changes. -/
theorem Patch.getBlob_apply {p : Patch} {content : Option Bytes} (h : p.blob = some content)
    (tx : Transaction) (store : Store) : (p.apply tx).getBlob store p.relpath = .ok content := by
  unfold Transaction.getBlob
  rw [p.blobs_apply, h]
  rfl

/-- A call changes one entry at most. -/
theorem Call.handled (algo : Digest.Algo) (store : Store) (tx : Transaction) (c : Call) :
    ∃ relpath, Handled relpath tx (c.apply algo store tx) := by
  rcases c.idle_or_writes algo store tx with hidle | ⟨hw, p, hwrites⟩
  · exact ⟨"", by rw [hidle]; exact .refl⟩
  · exact ⟨p.relpath, by rw [hwrites.apply_eq hw]; exact p.handled hw hwrites.valid⟩

end Entry

namespace Site

/-- What can be asked of a transaction, or to begin one, where changes are
made through handles. -/
inductive Request where
  | call (c : Entry.Call)
  /-- Anything but an edit. -/
  | manage (a : Action)

/-- The site after a request, if it is possible. -/
def answer (algo : Digest.Algo) (s : Site) (who : Nat) : Request → Option Site
  | .call c =>
      (s.opened who).map fun tx => s.settle s.store who (some (c.apply algo s.store tx))
  | .manage (.edit _) => none
  | .manage a => (s.act who a).map (·.1)

/-- A request that was answered. -/
structure Round where
  before : Site
  who : Nat
  request : Request
  after : Site

/-- The requests that are answered, one after the other; those that are
not possible are passed over. -/
def rounds (algo : Digest.Algo) (s : Site) : List (Nat × Request) → List Round
  | [] => []
  | (who, r) :: rest =>
      match s.answer algo who r with
      | some t => ⟨s, who, r, t⟩ :: t.rounds algo rest
      | none => s.rounds algo rest

variable {algo : Digest.Algo} {s t : Site} {who : Nat}

/-- An answer is a call by a transaction that is open, or a step that is no
edit. -/
theorem answer_cases (hs : s.Sane) {r : Request} (h : s.answer algo who r = some t) :
    (∃ c tx, r = .call c ∧ s.opened who = some tx
        ∧ t = s.settle s.store who (some (c.apply algo s.store tx)))
      ∨ ∃ a result, r = .manage a ∧ (∀ e, a ≠ .edit e) ∧ Move s who a result t := by
  cases r with
  | call c =>
      obtain ⟨tx, hopen, rfl⟩ := Option.map_eq_some_iff.1 h
      exact .inl ⟨c, tx, rfl, hopen, rfl⟩
  | manage a =>
      have hperform : s.perform algo who (.manage a) = some t := by
        cases a <;> exact h
      rcases perform_cases hs hperform with ⟨op, tx, heq, -⟩ | ⟨a', result, heq, ha, hmove⟩
      · cases heq
      · cases heq
        exact .inr ⟨a, result, rfl, ha, hmove⟩

/-- What holds at all sites that demands lead to holds at those that
requests lead to. -/
theorem Kept.answer (hs : s.Kept) {r : Request} (h : s.answer algo who r = some t) : t.Kept := by
  rcases answer_cases hs.sane h with ⟨c, tx, rfl, hopen, rfl⟩ | ⟨a, result, rfl, ha, hmove⟩
  · obtain ⟨relpath, hhandled⟩ := c.handled algo s.store tx
    exact hs.use hopen hhandled
  · exact hs.move hmove ha

/-- What is true of all who view a site, as far as they see its index, goes
on being true of them, if calls and commits keep it. -/
theorem Kept.views_answer {P : Transaction → Store → Prop} (hs : s.Kept) {r : Request}
    (h : s.answer algo who r = some t)
    (hobserved : ∀ v store after, v.observed after = v.observed store → P v store → P v after)
    (hcall : ∀ c tx, r = .call c → s.opened who = some tx → P tx s.store →
      P (c.apply algo s.store tx) s.store)
    (hlanded : ∀ tx n writable, s.opened who = some tx → tx.view = some s.store.index →
      t.store.index = tx.overlay s.store.index → P tx s.store →
      P (fresh t.store n writable) t.store)
    (hbefore : ∀ v, s.Views v → P v s.store) : ∀ v, t.Views v → P v t.store := by
  have ht := hs.answer h
  intro v hv
  rcases answer_cases hs.sane h with ⟨c, tx, rfl, hopen, rfl⟩ | ⟨a, result, rfl, ha, hmove⟩
  · rcases views_settle ht.sane hv with heq | hopen' | ⟨n, writable, hserial, rfl⟩
    · cases heq
      exact hcall c tx rfl hopen (hbefore tx (.inl ⟨who, hopen⟩))
    · exact hbefore v (.inl hopen')
    · exact hbefore _ (views_fresh hserial writable)
  · cases hmove.shift hs ha with
    | idle hstore hviews hclean =>
        rw [hstore]
        exact hbefore v (hviews v hv)
    | @commit tx hopen hwrites hlands hends hviews =>
        rcases hviews v hv with hbefore' | ⟨after, n, writable, hplaced, hstore, rfl⟩
        · obtain ⟨view, hview, -⟩ := hs.view hbefore'
          refine hobserved v s.store t.store ?_ (hbefore v hbefore')
          rw [observed_eq hview, observed_eq hview]
        · refine hlanded tx n writable hopen ((hs.sane.fit who tx hopen).current hwrites).1 ?_
            (hbefore tx (.inl ⟨who, hopen⟩))
          rw [hstore]
          rfl

/-- The site once all requests are answered that can be. -/
def served (algo : Digest.Algo) (s : Site) (requests : List (Nat × Request)) : Site :=
  requests.foldl (fun s request => (s.answer algo request.1 request.2).getD s) s

/-- What the answer to each of the requests keeps holds when all are
given. -/
theorem served_induct {P : Site → Prop} {requests : List (Nat × Request)}
    (hstep : ∀ s who r t, P s → s.answer algo who r = some t → (who, r) ∈ requests → P t)
    (hs : P s) : P (s.served algo requests) := by
  refine List.foldlRecOn requests _ hs fun s hs request hmem => ?_
  cases hanswer : s.answer algo request.1 request.2 with
  | none => exact hs
  | some t => exact hstep s request.1 request.2 t hs hanswer hmem

theorem Kept.served (hs : s.Kept) (algo : Digest.Algo) (requests : List (Nat × Request)) :
    (s.served algo requests).Kept :=
  served_induct (fun _ _ _ _ hs hanswer _ => hs.answer hanswer) hs

end Site

end Depot
