/-
What operations through handles do to a transaction. All of them change
the record and the blob of one relpath and nothing else (`Handled`). A
transaction trusts a relpath if what it sees there has the digest that it
sees declared (`Trusts`): fetches, uploads and deletions keep that, since
they write the record together with the content, while mapping a link
declares a digest without looking at the content
(`Entry.trusts_ofLink_iff`).
-/
import Depot.Proofs.Link
import Depot.Proofs.Store.Delivery
import Depot.Proofs.Store.FileRecord
import Depot.Proofs.Store.Commit

namespace Depot

open Transaction

namespace Entry

/-- A result that was changed was one before. -/
theorem ok_of_map {α β : Type} {f : α → β} {x : Except StoreError α} {b : β}
    (h : x.map f = .ok b) : ∃ a, x = .ok a ∧ f a = b := by
  cases x with
  | error err => cases h
  | ok a =>
      cases h
      exact ⟨a, rfl, rfl⟩

theorem keyOf_inj {a b : String} (h : keyOf a = keyOf b) : a = b :=
  (String.append_right_inj keyLead).1 h

/-- Changes of the record and the blob of one relpath. -/
inductive Handled (relpath : String) (tx : Transaction) : Transaction → Prop
  | refl : Handled relpath tx tx
  | record {t u : Transaction} (r : FileRecord) :
      Handled relpath tx t → t.set (keyOf relpath) r.toJson = .ok u → Handled relpath tx u
  | forget {t u : Transaction} :
      Handled relpath tx t → t.delete (keyOf relpath) = .ok u → Handled relpath tx u
  | blob {t u : Transaction} (content : Option Bytes) :
      Handled relpath tx t → t.changeBlob relpath content = .ok u → Handled relpath tx u

variable {relpath : String} {tx t : Transaction} {store : Store}

/-- Everything else stays as it was. -/
structure Elsewhere (relpath : String) (tx t : Transaction) : Prop where
  same : t = { tx with records := t.records, blobs := t.blobs }
  records : ∀ key, key ≠ keyOf relpath → t.records[key]? = tx.records[key]?
  blobs : ∀ other, other ≠ relpath → t.blobs[other]? = tx.blobs[other]?

theorem Elsewhere.change {u : Transaction} {value : Option Json} (h : Elsewhere relpath tx t)
    (hu : t.change (keyOf relpath) value = .ok u) : Elsewhere relpath tx u := by
  obtain ⟨-, rfl⟩ := change_eq hu
  refine ⟨by rw [h.same], fun key hkey => ?_, h.blobs⟩
  rw [Std.ExtTreeMap.getElem?_insert, if_neg (by simpa using Ne.symm hkey)]
  exact h.records key hkey

theorem Handled.elsewhere (h : Handled relpath tx t) : Elsewhere relpath tx t := by
  induction h with
  | refl => exact ⟨rfl, fun _ _ => rfl, fun _ _ => rfl⟩
  | record r _ hset ih => exact ih.change hset
  | forget _ hdelete ih => exact ih.change hdelete
  | blob content _ hchange ih =>
      obtain ⟨-, -, rfl⟩ := changeBlob_eq hchange
      refine ⟨by rw [ih.same], ih.records, fun other hother => ?_⟩
      rw [Std.ExtTreeMap.getElem?_insert, if_neg (by simpa using Ne.symm hother)]
      exact ih.blobs other hother

-- ===================================================== trust

/-- A digest is declared for a relpath, as far as the transaction sees. -/
def Declares (tx : Transaction) (store : Store) (relpath : String) (spec : HashSpec) : Prop :=
  ∃ algo e, load tx store algo relpath = .ok (some e) ∧ e.hash? = some spec

/-- What the transaction sees at a relpath has the digest that is declared
for it. -/
def Trusts (tx : Transaction) (store : Store) (relpath : String) : Prop :=
  ∀ spec content, Declares tx store relpath spec → tx.getBlob store relpath = .ok (some content) →
    spec.accepts content = true

/-- The records of other keys are as before. -/
theorem Elsewhere.get (h : Elsewhere relpath tx t) {key : String} (hne : key ≠ keyOf relpath) :
    t.get store key = tx.get store key := by
  unfold Transaction.get
  rw [h.records key hne, h.same]
  rfl

/-- The entries that are found for other relpaths are as before. -/
theorem Elsewhere.load (h : Elsewhere relpath tx t) {other : String} (hne : other ≠ relpath)
    (algo : Digest.Algo) : load t store algo other = load tx store algo other := by
  unfold Entry.load
  rw [h.get fun heq => hne (keyOf_inj heq)]

/-- What is declared for other relpaths is as before. -/
theorem Elsewhere.declares_iff (h : Elsewhere relpath tx t) {other : String} (hne : other ≠ relpath)
    (spec : HashSpec) : Declares t store other spec ↔ Declares tx store other spec := by
  unfold Declares
  simp only [h.load hne]

/-- What is seen at other relpaths is as before. -/
theorem Elsewhere.getBlob (h : Elsewhere relpath tx t) {other : String} (hne : other ≠ relpath) :
    t.getBlob store other = tx.getBlob store other := by
  unfold Transaction.getBlob
  rw [h.blobs other hne, h.same]
  rfl

theorem Elsewhere.trusts_iff (h : Elsewhere relpath tx t) {other : String} (hne : other ≠ relpath) :
    Trusts t store other ↔ Trusts tx store other := by
  unfold Trusts
  simp only [h.declares_iff hne, h.getBlob hne]

/-- A handle that is loaded is one on the relpath. -/
theorem of_load {algo : Digest.Algo} {e : Entry}
    (h : load tx store algo relpath = .ok (some e)) : e = ⟨relpath, e.record, algo⟩ := by
  unfold load at h
  split at h
  · cases h
  · cases h
  · obtain ⟨record, -, heq⟩ := ok_of_map h
    cases heq
    rfl

/-- So is one that may be new. -/
theorem of_loadOrNew {algo : Digest.Algo} {e : Entry}
    (h : loadOrNew tx store algo relpath = .ok e) : e = ⟨relpath, e.record, algo⟩ := by
  unfold loadOrNew at h
  obtain ⟨found, hload, rfl⟩ := ok_of_map h
  cases found with
  | none => rfl
  | some e => exact of_load hload

/-- A record of the transaction's own is what is loaded. -/
theorem load_pending {r : FileRecord} (h : t.records[keyOf relpath]? = some (some r.toJson))
    (algo : Digest.Algo) : load t store algo relpath = .ok (some ⟨relpath, r, algo⟩) := by
  unfold load Transaction.get readRecord
  rw [h]
  dsimp only
  rw [r.ofJson?_toJson]
  rfl

/-- So is a committed one that is not changed, if its size can be read. -/
theorem load_committed {r : FileRecord} (hpending : tx.records[keyOf relpath]? = none)
    (htext : (tx.observed store).records[keyOf relpath]? = some r.toJson.compact)
    (hcounted : r.Counted) (algo : Digest.Algo) :
    load tx store algo relpath = .ok (some ⟨relpath, r, algo⟩) := by
  have hget : tx.get store (keyOf relpath) = .ok (some r.toJson) := by
    unfold Transaction.get Transaction.readRecord
    rw [hpending]
    dsimp only
    rw [htext]
    dsimp only
    rw [hcounted.read_compact]
    rfl
  unfold load readRecord
  rw [hget]
  dsimp only
  rw [r.ofJson?_toJson]
  rfl

/-- What a record of the transaction's own declares. -/
theorem declares_pending {r : FileRecord} (h : t.records[keyOf relpath]? = some (some r.toJson))
    {spec : HashSpec} (algo : Digest.Algo) :
    Declares t store relpath spec ↔ (Entry.mk relpath r algo).hash? = some spec := by
  unfold Declares
  constructor
  · intro hdeclares
    obtain ⟨algo', e, he, hhash⟩ := hdeclares
    rw [load_pending h] at he
    cases he
    exact hhash
  · intro hhash
    exact ⟨algo, _, load_pending h algo, hhash⟩

/-- Where content is deleted, nothing is amiss. -/
theorem trusts_of_blob_none (h : t.blobs[relpath]? = some none) : Trusts t store relpath := by
  intro spec content _ hcontent
  unfold Transaction.getBlob at hcontent
  rw [h] at hcontent
  cases hcontent

/-- Where the record is deleted, neither. -/
theorem trusts_of_record_none (h : t.records[keyOf relpath]? = some none) :
    Trusts t store relpath := by
  intro spec content hdeclares _
  obtain ⟨algo, e, he, -⟩ := hdeclares
  unfold load Transaction.get at he
  rw [h] at he
  cases he

/-- Nor where content is set together with a record whose digest it has. -/
theorem trusts_of_filled {r : FileRecord} {content : Bytes} (algo : Digest.Algo)
    (hrecord : t.records[keyOf relpath]? = some (some r.toJson))
    (hblob : t.blobs[relpath]? = some (some content))
    (h : ∀ spec, (Entry.mk relpath r algo).hash? = some spec → spec.accepts content = true) :
    Trusts t store relpath := by
  intro spec content' hdeclares hcontent
  unfold Transaction.getBlob at hcontent
  rw [hblob] at hcontent
  cases hcontent
  exact h spec ((declares_pending hrecord algo).1 hdeclares)

-- ===================================================== operations through handles

/-- A change of a record, by a transaction that may write. -/
theorem change_of_writable (h : t.writable = true) (key : String) (value : Option Json) :
    t.change key value = .ok { t with records := t.records.insert key value } := by
  unfold Transaction.change
  rw [if_pos h]

/-- Saving a handle writes its record. -/
theorem save_spec {e : Entry} (hhandled : Handled e.relpath tx t) (h : t.writable = true) :
    Handled e.relpath tx (e.save t).tx ∧ (e.save t).result = .ok ()
      ∧ (e.save t).tx.records[keyOf e.relpath]? = some (some e.record.toJson)
      ∧ (e.save t).tx.blobs = t.blobs := by
  have hset : t.set (keyOf e.relpath) e.record.toJson
      = .ok { t with records := t.records.insert (keyOf e.relpath) (some e.record.toJson) } :=
    change_of_writable h _ _
  have hsave : e.save t = ⟨e, { t with
      records := t.records.insert (keyOf e.relpath) (some e.record.toJson) }, .ok ()⟩ := by
    unfold save persist key
    rw [hset]
  rw [hsave]
  exact ⟨.record e.record hhandled hset, rfl, Std.ExtTreeMap.getElem?_insert_self, rfl⟩

/-- Setting content writes a record with the digest of the handle beside
it, or nothing. -/
theorem setContent_spec (e : Entry) (tx : Transaction) (content : Bytes) (date : String) :
    ((e.setContent tx content date).tx = tx ∧ (e.setContent tx content date).result ≠ .ok ())
      ∨ (Handled e.relpath tx (e.setContent tx content date).tx
        ∧ (e.setContent tx content date).tx.blobs[e.relpath]? = some (some content)
        ∧ ∃ r : FileRecord, r.hash = e.record.hash
          ∧ (e.setContent tx content date).tx.records[keyOf e.relpath]?
            = some (some r.toJson)) := by
  unfold setContent
  dsimp only
  cases hset : tx.setBlob e.relpath content with
  | error err => exact .inl ⟨rfl, nofun⟩
  | ok t =>
      obtain ⟨hw, -, rfl⟩ := changeBlob_eq hset
      obtain ⟨hhandled, -, hrecord, hblobs⟩ := save_spec (e := { e with
        record := { e.record with size := some content.length, lastModified := some date } })
        (.blob (some content) .refl hset) hw
      refine .inr ⟨hhandled, ?_,
        { e.record with size := some content.length, lastModified := some date }, rfl, hrecord⟩
      dsimp only
      rw [hblobs]
      exact Std.ExtTreeMap.getElem?_insert_self

/-- Deleting content leaves none, or changes nothing. -/
theorem deleteContent_spec (e : Entry) (tx : Transaction) :
    (e.deleteContent tx).tx = tx
      ∨ (Handled e.relpath tx (e.deleteContent tx).tx
        ∧ (e.deleteContent tx).tx.blobs[e.relpath]? = some none) := by
  unfold deleteContent
  cases hdelete : tx.deleteBlob e.relpath with
  | error err => exact .inl rfl
  | ok t =>
      obtain ⟨hw, -, rfl⟩ := changeBlob_eq hdelete
      obtain ⟨hhandled, -, -, hblobs⟩ := save_spec (e := { e with
        record := { e.record with size := none, contentLength := none } })
        (.blob none .refl hdelete) hw
      refine .inr ⟨hhandled, ?_⟩
      dsimp only
      rw [hblobs]
      exact Std.ExtTreeMap.getElem?_insert_self

/-- Deleting an entry leaves no record, or changes nothing. -/
theorem delete_spec (e : Entry) (tx : Transaction) :
    (e.delete tx).tx = tx
      ∨ (Handled e.relpath tx (e.delete tx).tx
        ∧ (e.delete tx).tx.records[keyOf e.relpath]? = some none) := by
  unfold delete key
  cases hdelete : tx.delete (keyOf e.relpath) with
  | error err => exact .inl rfl
  | ok t =>
      have hhandled : Handled e.relpath tx t := .forget .refl hdelete
      obtain ⟨-, rfl⟩ := change_eq hdelete
      dsimp only
      cases hblob : Transaction.deleteBlob _ e.relpath with
      | error err => exact .inr ⟨hhandled, Std.ExtTreeMap.getElem?_insert_self⟩
      | ok u =>
          refine .inr ⟨.blob none hhandled hblob, ?_⟩
          obtain ⟨-, -, rfl⟩ := changeBlob_eq hblob
          exact Std.ExtTreeMap.getElem?_insert_self

-- ===================================================== downloads

/-- Content that passes the checks comes with its digest, which is the one
declared, if one is. -/
theorem check_ok {e : Entry} {url : String} {response : Response} {d : Download}
    (h : e.check url response = .ok d) :
    d.digest = e.algo.hexDigest d.content
      ∧ ∀ spec, e.hash? = some spec → d.digest = spec.value := by
  rw [check_eq] at h
  obtain ⟨-, -, -, haccepts, rfl⟩ := verdict_ok_iff.1 h
  refine ⟨rfl, fun spec hspec => ?_⟩
  have halgo : e.algo = spec.algo := by
    unfold algo
    rw [hspec]
    rfl
  have hdigest := haccepts spec hspec
  unfold HashSpec.accepts at hdigest
  rw [decide_eq_true_eq, ← halgo] at hdigest
  exact hdigest

-- ===================================================== trusted operations

/-- A digest in a record is that of content: what it declares accepts it. -/
theorem accepts_of_hash {e : Entry} {a : Digest.Algo} {content : Bytes} {spec : HashSpec}
    (hhash : e.record.hash = some (a.name ++ "=" ++ a.hexDigest content))
    (h : e.hash? = some spec) : spec.accepts content = true := by
  unfold hash? at h
  rw [hhash, Option.bind_some] at h
  cases hparse : HashSpec.parse (a.name ++ "=" ++ a.hexDigest content) with
  | error err => rw [hparse] at h; cases h
  | ok parsed =>
      rw [hparse] at h
      cases h
      exact HashSpec.accepts_of_parse hparse

/-- What a handle declares depends on the digest in its record. -/
theorem hash?_congr {a b : Entry} (h : a.record.hash = b.record.hash) : a.hash? = b.hash? := by
  unfold hash?
  rw [h]

/-- What a handle declares after a download accepts what was downloaded. -/
theorem accepts_of_withDownload {e : Entry} {url asked : String} {response : Response}
    {d : Download} (hcheck : e.check asked response = .ok d) {spec : HashSpec}
    (h : (e.withDownload url d).hash? = some spec) : spec.accepts d.content = true := by
  obtain ⟨hdigest, hmatch⟩ := check_ok hcheck
  by_cases hnew : e.record.hash.isNone ∧ e.record.egg.isNone
  · refine accepts_of_hash (a := e.algo) (e := e.withDownload url d) ?_ h
    unfold withDownload
    dsimp only
    rw [if_pos hnew, hdigest]
  · have hsame : (e.withDownload url d).record.hash = e.record.hash := by
      unfold withDownload
      dsimp only
      rw [if_neg hnew]
    rw [hash?_congr hsame] at h
    have halgo : e.algo = spec.algo := by
      unfold algo
      rw [h]
      rfl
    unfold HashSpec.accepts
    rw [decide_eq_true_eq, ← halgo, ← hdigest]
    exact hmatch spec h

/-- An operation that leaves a relpath trusted, if it changes anything. -/
def Upholds (relpath : String) (tx t : Transaction) : Prop :=
  t = tx ∨ (Handled relpath tx t ∧ ∀ store, Trusts t store relpath)

theorem upholds_deleteContent (e : Entry) (tx : Transaction) :
    Upholds e.relpath tx (e.deleteContent tx).tx :=
  (deleteContent_spec e tx).imp id fun ⟨h, hblob⟩ => ⟨h, fun _ => trusts_of_blob_none hblob⟩

theorem upholds_delete (e : Entry) (tx : Transaction) :
    Upholds e.relpath tx (e.delete tx).tx :=
  (delete_spec e tx).imp id fun ⟨h, hrecord⟩ => ⟨h, fun _ => trusts_of_record_none hrecord⟩

/-- Setting content that the handle's digest accepts. -/
theorem upholds_setContent {e : Entry} {content : Bytes}
    (h : ∀ spec, e.hash? = some spec → spec.accepts content = true) (tx : Transaction)
    (date : String) : Upholds e.relpath tx (e.setContent tx content date).tx := by
  refine (setContent_spec e tx content date).imp (·.1) ?_
  intro hset
  obtain ⟨hhandled, hblob, r, hr, hrecord⟩ := hset
  refine ⟨hhandled, fun store => trusts_of_filled e.defaultAlgo hrecord hblob fun spec hspec => ?_⟩
  rw [hash?_congr (b := e) hr] at hspec
  exact h spec hspec

/-- A fetch takes in what has the declared digest, or declares the digest
of what it takes in; or it deletes what was there, or changes nothing. -/
theorem upholds_fetch (e : Entry) (tx : Transaction) (web : Web) (now : String)
    (url : Option String) : Upholds e.relpath tx (e.fetch tx web now url).tx := by
  unfold fetch
  split
  · exact .inl rfl
  · next asked htarget =>
    split
    · split
      · exact upholds_deleteContent e tx
      · exact .inl rfl
    · next d hdownload =>
      unfold download at hdownload
      split at hdownload
      · cases hdownload
      · exact upholds_setContent (e := e.withDownload asked d)
          (fun spec => accepts_of_withDownload hdownload) tx _

/-- An upload is kept under the digest of its content. -/
theorem upholds_upload {tx t : Transaction} {store : Store} {algo : Digest.Algo}
    {now user index basename : String} {content : Bytes} {e : Entry}
    (h : upload tx store algo now user index basename content = .ok (e, t)) :
    ∃ relpath, Upholds relpath tx t := by
  unfold upload at h
  split at h
  · cases h
  · dsimp only at h
    split at h
    · cases h
    · next old hload =>
      obtain ⟨-, -, heq⟩ := ok_of_map h
      cases heq
      refine ⟨_, upholds_setContent (fun spec hspec => ?_) tx now⟩
      exact accepts_of_hash (a := algo) rfl hspec

-- ===================================================== links

/-- Mapping a link writes the record that the link describes, unless that
says nothing new or the transaction may not write. -/
theorem ofLink_spec {algo : Digest.Algo} {link : Link} {e : Entry}
    (h : ofLink tx store algo link = .ok (e, t)) :
    ∃ found, load tx store algo link.relpath = .ok found
      ∧ e.record = describedBy link ((found.map (·.record)).getD {})
      ∧ ((t = tx ∧ (tx.writable = true → ∃ old, found = some old ∧ e.record = old.record))
        ∨ (tx.writable = true ∧ Handled link.relpath tx t ∧ t.blobs = tx.blobs
          ∧ t.records[keyOf link.relpath]? = some (some e.record.toJson))) := by
  unfold ofLink at h
  split at h
  · cases h
  · next found hload =>
    refine ⟨found, hload, ?_⟩
    dsimp only at h
    split at h
    · next hnew =>
      obtain ⟨u, hset, heq⟩ := ok_of_map h
      cases heq
      refine ⟨rfl, .inr ⟨hnew.1, .record _ .refl hset, ?_, ?_⟩⟩
      · obtain ⟨-, rfl⟩ := change_eq hset
        rfl
      · obtain ⟨-, rfl⟩ := change_eq hset
        exact Std.ExtTreeMap.getElem?_insert_self
    · next hold =>
      cases h
      refine ⟨rfl, .inl ⟨rfl, fun hw => ?_⟩⟩
      cases found with
      | none => exact absurd ⟨hw, .inl rfl⟩ hold
      | some old => exact ⟨old, rfl, by_contra fun hne => hold ⟨hw, .inr hne⟩⟩

/-- What the record of a mapped link declares: the digest of the link, if it
has one, and else what the record declared before. -/
theorem hash?_describedBy {raw : String} {link : Link} (hlink : Link.parse raw = .ok link)
    (old : FileRecord) (algo : Digest.Algo) :
    (Entry.mk link.relpath (describedBy link old) algo).hash?
      = link.hash.or (Entry.mk link.relpath old algo).hash? := by
  unfold hash? describedBy
  dsimp only
  cases hhash : link.hash with
  | none => rfl
  | some spec =>
      show (HashSpec.parse spec.toText).toOption = some spec
      rw [Link.parse_hash hlink hhash]
      rfl

/-- Mapping a link keeps its relpath trusted just if the digest that it
declares, if any, accepts the content that is there. -/
theorem trusts_ofLink_iff {algo : Digest.Algo} {raw : String} {link : Link} {e : Entry}
    (hlink : Link.parse raw = .ok link) (h : ofLink tx store algo link = .ok (e, t))
    (htrusts : Trusts tx store link.relpath) :
    Trusts t store link.relpath
      ↔ (tx.writable = true → ∀ spec content, link.hash = some spec →
          tx.getBlob store link.relpath = .ok (some content) → spec.accepts content = true) := by
  obtain ⟨found, hload, hrecord, hcases⟩ := ofLink_spec h
  have hdeclared := hash?_describedBy hlink ((found.map Entry.record).getD {}) algo
  rw [← hrecord] at hdeclared
  rcases hcases with ⟨rfl, hold⟩ | ⟨hw, hhandled, hblobs, hset⟩
  · -- nothing is written, as the record says this already
    refine ⟨fun _ hw spec content hspec hcontent => ?_, fun _ => htrusts⟩
    obtain ⟨old, rfl, heq⟩ := hold hw
    refine htrusts spec content ⟨algo, old, hload, ?_⟩ hcontent
    rw [hspec] at hdeclared
    exact (hash?_congr (congrArg FileRecord.hash heq.symm)).trans hdeclared
  · have hblob : t.getBlob store link.relpath = tx.getBlob store link.relpath := by
      unfold Transaction.getBlob
      rw [hblobs, hhandled.elsewhere.same]
      rfl
    constructor
    · intro ht _ spec content hspec hcontent
      rw [hspec] at hdeclared
      exact ht spec content ((declares_pending hset algo).2 hdeclared) (hblob.trans hcontent)
    · intro hsound spec content hdeclares hcontent
      rw [hblob] at hcontent
      have hnow := hdeclared.symm.trans ((declares_pending hset algo).1 hdeclares)
      cases hhash : link.hash with
      | some declared =>
          rw [hhash] at hnow
          cases hnow
          exact hsound hw spec content hhash hcontent
      | none =>
          -- the digest is the one that was declared before, if there was a record
          rw [hhash] at hnow
          cases found with
          | none => cases hnow
          | some old =>
              exact htrusts spec content ⟨algo, old, hload, (hash?_congr rfl).trans hnow⟩ hcontent

end Entry

end Depot
