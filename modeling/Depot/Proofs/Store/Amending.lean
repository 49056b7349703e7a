/-
What is done through a handle, and what is left of it when it is refused.
An amendment changes the record of the handle and of the store, and maybe
the content (`Amendment.perform_of_writable`). But it changes the handle
before it asks the store, which may refuse it, unless it deletes content;
and deleting an entry deletes its record before its content. So a refusal
is harmless only if what comes first changes nothing (`refused_idle_iff`).
-/
import Depot.Proofs.Store.Failing

namespace Depot

open Transaction

namespace Entry

-- ===================================================== amendments

/-- A change of the record through a handle, which may be about the
content. -/
inductive Amendment where
  | hash (spec : Option HashSpec)
  | url (url : String)
  | lastModified (date : String)
  | content (bytes : Bytes) (date : String)
  | noContent

namespace Amendment

/-- Makes the change. -/
def perform (e : Entry) (tx : Transaction) : Amendment → Step StoreError
  | .hash spec => e.setHash tx spec
  | .url source => e.setUrl tx source
  | .lastModified date => e.setLastModified tx date
  | .content bytes date => e.setContent tx bytes date
  | .noContent => e.deleteContent tx

/-- The record with the change in it. -/
def revise (r : FileRecord) : Amendment → FileRecord
  | .hash spec => { r with hash := spec.map HashSpec.toText }
  | .url source => { r with url := some source }
  | .lastModified date => { r with lastModified := some date }
  | .content bytes date => r.holding bytes date
  | .noContent => r.cleared

/-- The blob that there is then, if that changes. -/
def blob? : Amendment → Option (Option Bytes)
  | .content bytes _ => some (some bytes)
  | .noContent => some none
  | _ => none

/-- The record of the handle if the change is refused. Only where content
is deleted does the store come first. -/
def refused (r : FileRecord) : Amendment → FileRecord
  | .noContent => r
  | a => a.revise r

variable {a : Amendment} {e : Entry} {tx : Transaction}

/-- A change that is not refused is made in the handle, and all that the
handle holds then is written. -/
theorem perform_of_writable (hw : tx.writable = true)
    (hvalid : a.blob? ≠ none → Relpath.isValid e.relpath = true) :
    a.perform e tx = ⟨{ e with record := a.revise e.record },
      Patch.apply ⟨e.relpath, some (a.revise e.record), a.blob?⟩ tx, .ok ()⟩ := by
  cases a with
  | hash | url | lastModified => exact save_eq hw _
  | content => exact setContent_eq hw (hvalid nofun) ..
  | noContent => exact deleteContent_eq hw (hvalid nofun)

/-- A change that is refused leaves the store as it was. -/
theorem perform_of_error {err : StoreError} (h : (a.perform e tx).result = .error err) :
    a.perform e tx = ⟨{ e with record := a.refused e.record }, tx, .error err⟩ := by
  cases a with
  | hash | url | lastModified => exact save_of_error h
  | content bytes date =>
      dsimp only [perform] at h ⊢
      cases hchange : tx.changeBlob e.relpath (some bytes) with
      | ok t =>
          obtain ⟨hw, hvalid, -⟩ := changeBlob_eq hchange
          rw [setContent_eq hw hvalid] at h
          cases h
      | error cause =>
          rw [setContent_of_refused hchange] at h ⊢
          cases h
          rfl
  | noContent =>
      dsimp only [perform] at h ⊢
      cases hchange : tx.changeBlob e.relpath none with
      | ok t =>
          obtain ⟨hw, hvalid, -⟩ := changeBlob_eq hchange
          rw [deleteContent_eq hw hvalid] at h
          cases h
      | error cause =>
          rw [deleteContent_of_refused hchange] at h ⊢
          cases h
          rfl

end Amendment

-- ===================================================== operations

/-- What can be asked of a handle. -/
inductive Operation where
  | amend (a : Amendment)
  /-- The record and the content are deleted. -/
  | delete
  | fetch (web : Web) (now : String) (url : Option String)

/-- Does what is asked. -/
def Operation.perform (e : Entry) (tx : Transaction) : Operation → Step FetchError
  | .amend a => (a.perform e tx).inFetch
  | .delete => (e.delete tx).inFetch
  | .fetch web now url => e.fetch tx web now url

/-- Nothing is changed: the handle is as it was, and every record and all
content is seen as before. -/
structure Step.Idle {ε : Type} (step : Step ε) (e : Entry) (tx : Transaction) (store : Store) :
    Prop where
  entry : step.entry = e
  records : ∀ key, step.tx.get store key = tx.get store key
  blobs : ∀ relpath, step.tx.seen store relpath = tx.seen store relpath

/-- A refusal of the operation is harmless: its change of the handle's
record, where that comes before the store is asked, is none; and there is
no record to be deleted before the content is. -/
def Operation.Harmless (e : Entry) (tx : Transaction) (store : Store) : Operation → Prop
  | .amend a => a.refused e.record = e.record
  | .delete => tx.writable = true → tx.get store e.key = .ok none
  | .fetch web now url => ∀ source d, e.target tx url = .ok source →
      e.download web source = .ok d →
      (e.withDownload source d).record.holding d.content
        ((d.headers.lastModified <|> e.record.lastModified).getD now) = e.record

variable {e : Entry} {tx : Transaction} {store : Store}

/-- A step that changes nothing but the handle is idle if it does not change
that. -/
theorem Step.idle_iff {ε : Type} {record : FileRecord} {result : Except ε Unit} :
    (Step.mk { e with record } tx result).Idle e tx store ↔ record = e.record := by
  refine ⟨fun h => congrArg Entry.record h.entry, ?_⟩
  rintro rfl
  exact ⟨rfl, fun _ => rfl, fun _ => rfl⟩

/-- What is seen of content does not depend on the records. -/
theorem Patch.seen_apply {p : Patch} (h : p.blob = none) (tx : Transaction) (store : Store)
    (relpath : String) : (p.apply tx).seen store relpath = tx.seen store relpath := by
  obtain ⟨_, _, _⟩ := p
  cases h
  rfl

/-- Where content cannot be deleted, deleting both deletes the record
only. -/
theorem delete_of_error {err : StoreError} (h : (e.delete tx).result = .error err) :
    tx.writable = false ∧ e.delete tx = ⟨e, tx, .error err⟩
      ∨ tx.writable = true ∧ e.delete tx
        = ⟨e, Patch.apply ⟨e.relpath, none, none⟩ tx, .error err⟩ := by
  cases hw : tx.writable with
  | false =>
      have hchange : tx.change e.key none = .error .readOnly := by
        unfold change
        rw [hw]
        rfl
      unfold Entry.delete Transaction.delete at h ⊢
      rw [hchange] at h ⊢
      cases h
      exact .inl ⟨rfl, rfl⟩
  | true =>
      cases hvalid : Relpath.isValid e.relpath with
      | true =>
          rw [delete_eq hw hvalid] at h
          cases h
      | false =>
          rw [delete_of_stray hw hvalid] at h ⊢
          cases h
          exact .inr ⟨rfl, rfl⟩

theorem Step.result_of_inFetch {step : Step StoreError} {err : StoreError}
    (h : step.inFetch.result = .error (.store err)) : step.result = .error err := by
  obtain ⟨entry, t, result⟩ := step
  cases result with
  | ok => cases h
  | error cause =>
      cases h
      rfl

/-- An operation that the store refuses changes nothing just if the refusal
is harmless. -/
theorem refused_idle_iff {o : Operation} {err : StoreError}
    (h : (o.perform e tx).result = .error (.store err)) (store : Store) :
    (o.perform e tx).Idle e tx store ↔ o.Harmless e tx store := by
  cases o with
  | amend a =>
      show (a.perform e tx).inFetch.Idle e tx store ↔ _
      rw [Amendment.perform_of_error (Step.result_of_inFetch h)]
      exact Step.idle_iff
  | delete =>
      show (e.delete tx).inFetch.Idle e tx store ↔ (_ → _)
      rcases delete_of_error (Step.result_of_inFetch h) with ⟨hw, hdelete⟩ | ⟨hw, hdelete⟩
      · rw [hdelete]
        exact iff_of_true (Step.idle_iff.2 rfl) fun hw' => by simp [hw] at hw'
      · have hget := Patch.get_apply ⟨e.relpath, none, none⟩ tx store
        have helsewhere := (Patch.handled ⟨e.relpath, none, none⟩ hw nofun).elsewhere
        rw [hdelete]
        refine ⟨fun hidle _ => (hidle.records e.key).symm.trans hget, fun hnone => ?_⟩
        refine ⟨rfl, fun key => ?_, Patch.seen_apply rfl tx store⟩
        by_cases hkey : key = e.key
        · subst hkey
          exact hget.trans (hnone hw).symm
        · exact helsewhere.get hkey
  | fetch web now url =>
      have hfetched := fetch_cases e tx web now url
      show (e.fetch tx web now url).Idle e tx store ↔ (∀ source d, _ → _ → _)
      change (e.fetch tx web now url).result = _ at h
      generalize e.fetch tx web now url = step at h hfetched
      cases hfetched with
      | unasked hsource =>
          refine iff_of_true (Step.idle_iff.2 rfl) fun source d hsource' _ => ?_
          rw [hsource] at hsource'
          cases hsource'
      | spared hsource hdownload | damagedStray hsource hdownload =>
          refine iff_of_true (Step.idle_iff.2 rfl) fun source d hsource' hdownload' => ?_
          rw [hsource] at hsource'
          cases hsource'
          rw [hdownload] at hdownload'
          cases hdownload'
      | damaged _ _ hdamage =>
          cases h
          cases hdamage
      | taken => cases h
      | takenStray hsource hdownload hrecord =>
          rw [Step.idle_iff, hrecord]
          refine ⟨fun hsame source d hsource' hdownload' => ?_,
            fun hall => hall _ _ hsource hdownload⟩
          rw [hsource] at hsource'
          cases hsource'
          rw [hdownload] at hdownload'
          cases hdownload'
          exact hsame

/-- What is fetched from a host of two points is in the handle before it is
refused, and the record of such an entry is deleted before its content is
not. -/
theorem refused_idle_of_points :
    let e : Entry := ⟨"+e/../x", { url := some "http://../x" }, .md5⟩
    let tx : Transaction := Patch.apply ⟨e.relpath, some e.record, none⟩
      { writable := true, serial := 0, view := some {} }
    let store : Store := { root := "depot" }
    let fetch : Operation := .fetch (fun _ => .ok ⟨200, {}, [.data [1]]⟩) "now" none
    (fetch.perform e tx).result = .error (.store (.invalidRelpath "+e/../x"))
      ∧ ¬(fetch.perform e tx).Idle e tx store
      ∧ (Operation.perform e tx .delete).result = .error (.store (.invalidRelpath "+e/../x"))
      ∧ ¬(Operation.perform e tx .delete).Idle e tx store := by
  intro e tx store fetch
  have hinvalid : Relpath.isValid e.relpath = false := by decide
  have hfetch : (fetch.perform e tx).result = .error (.store (.invalidRelpath "+e/../x")) :=
    congrArg Step.result (fetch_of_stray rfl rfl hinvalid "now")
  have hdelete : (Operation.perform e tx .delete).result
      = .error (.store (.invalidRelpath "+e/../x")) :=
    congrArg (fun step => step.inFetch.result) (delete_of_stray rfl hinvalid)
  refine ⟨hfetch, fun hidle => ?_, hdelete, fun hidle => ?_⟩
  · have hsame := (refused_idle_iff hfetch store).1 hidle "http://../x" _ rfl rfl
    exact nomatch congrArg FileRecord.size hsame
  · have hnone := (refused_idle_iff hdelete store).1 hidle rfl
    have hget := Patch.get_apply ⟨e.relpath, some e.record, none⟩
      { writable := true, serial := 0, view := some {} } store
    exact nomatch hget.symm.trans hnone

end Entry

end Depot
