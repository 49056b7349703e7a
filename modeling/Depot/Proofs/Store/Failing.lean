/-
What a fetch that fails leaves behind. Content that is damaged is deleted,
and with it the sizes in the record; any other failure, however far the
body has come by then, changes nothing (`failed_fetch`).
-/
import Depot.Proofs.Store.Calls

namespace Depot

open Transaction

namespace Entry

variable {e : Entry} {tx t : Transaction} {relpath : String}

/-- What is seen at other relpaths is as before. -/
theorem Elsewhere.seen (h : Elsewhere relpath tx t) {other : String} (hne : other ≠ relpath)
    (store : Store) : t.seen store other = tx.seen store other := by
  unfold Transaction.seen hasBlob Transaction.getBlob blobSize
  rw [h.blobs other hne, h.same]
  rfl

/-- Where content is deleted, none is seen. -/
theorem seen_of_deleted (h : t.blobs[relpath]? = some none) (store : Store) :
    t.seen store relpath = ⟨false, .ok none, .ok none⟩ := by
  unfold Transaction.seen hasBlob Transaction.getBlob blobSize
  rw [h]
  rfl

/-- Before anything is asked for, a fetch fails for want of a URL, or
because the transaction may not write. -/
theorem target_error {url : Option String} {err : FetchError}
    (h : e.target tx url = .error err) :
    err = .missingUrl e.relpath ∨ (err = .store .readOnly ∧ tx.writable = false) := by
  unfold target at h
  split at h
  · cases h
    exact .inl rfl
  · split at h
    · cases h
    · next hw =>
      cases h
      exact .inr ⟨rfl, Bool.eq_false_iff.2 hw⟩

/-- A fetch that fails because what came was damaged has deleted the
content, and cleared the sizes in the record. One that fails otherwise
leaves everything as it was, unless it failed because nothing can be kept
at the relpath. -/
theorem failed_fetch {web : Web} {now : String} {url : Option String} {err : FetchError}
    (h : (e.fetch tx web now url).result = .error err) (store : Store) :
    let step := e.fetch tx web now url
    (isDamage err = false → (∀ relpath, err ≠ .store (.invalidRelpath relpath)) →
      step.entry = e ∧ step.tx = tx)
    ∧ (isDamage err = true →
      step.entry = { e with record := e.record.cleared }
        ∧ step.tx.seen store e.relpath = ⟨false, .ok none, .ok none⟩
        ∧ step.tx.get store e.key = .ok (some e.record.cleared.toJson)
        ∧ (∀ algo, load step.tx store algo e.relpath
          = .ok (some ⟨e.relpath, e.record.cleared, algo⟩))
        ∧ (∀ key, key ≠ e.key → step.tx.get store key = tx.get store key)
        ∧ ∀ relpath, relpath ≠ e.relpath →
          step.tx.seen store relpath = tx.seen store relpath) := by
  intro step
  have hfetched : Fetched e tx web now url step := fetch_cases e tx web now url
  change step.result = .error err at h
  generalize step = left at h hfetched
  cases hfetched with
  | unasked hsource =>
      cases h
      refine ⟨fun _ _ => ⟨rfl, rfl⟩, fun hdamage => ?_⟩
      rcases target_error hsource with rfl | ⟨rfl, -⟩ <;> cases hdamage
  | spared hsource hdownload hspared =>
      cases h
      refine ⟨fun _ _ => ⟨rfl, rfl⟩, fun hdamage => ?_⟩
      rw [hspared] at hdamage
      cases hdamage
  | damaged hsource hdownload hdamage hvalid =>
      cases h
      refine ⟨fun hspared => ?_, fun _ => ?_⟩
      · rw [hspared] at hdamage
        cases hdamage
      · have helsewhere := (Patch.handled ⟨e.relpath, some e.record.cleared, some none⟩
          (writable_of_target hsource) fun _ => hvalid).elsewhere
        exact ⟨rfl, seen_of_deleted (Patch.blobs_apply ..) store, Patch.get_apply ..,
          Patch.load_apply _ tx store, fun _ => helsewhere.get,
          fun _ hne => helsewhere.seen hne store⟩
  | damagedStray | takenStray =>
      cases h
      exact ⟨fun _ hne => absurd rfl (hne _), nofun⟩
  | taken => cases h

/-- A connection that fails after one octet is damage where three were
declared, and none where nothing was. -/
theorem failed_fetch_of_short_body :
    let e : Entry :=
      ⟨"a/b", { url := some "http://h/b", size := some 3, contentLength := some "3" }, .md5⟩
    let tx : Transaction :=
      { writable := true, serial := 0, view := some {},
        blobs := .ofList [("a/b", some ([1, 2, 3] : Bytes)), ("c/d", some [4])] }
    let store : Store := { root := "depot" }
    let web : ResponseHeaders → Web := fun headers _ =>
      .ok ⟨200, headers, [.data [1], .interrupted, .failed "reset"]⟩
    let short := e.fetch tx (web { contentLength := some "3" }) "now" none
    let broken := e.fetch tx (web {}) "now" none
    (short.result = .error (.sizeMismatch "http://h/b" 3 1)
      ∧ short.entry.record = { url := some "http://h/b" }
      ∧ short.tx.hasBlob store "a/b" = false
      ∧ short.tx.getBlob store "c/d" = .ok (some [4]))
    ∧ broken.result = .error (.stream "http://h/b" "reset") ∧ broken.entry = e
      ∧ broken.tx = tx := by
  intro e tx store web short broken
  have hshort : short.result = .error (.sizeMismatch "http://h/b" 3 1) :=
    congrArg Step.result (fetch_of_damaged rfl rfl rfl (by decide) _)
  have hbroken : broken.result = .error (.stream "http://h/b" "reset") := rfl
  obtain ⟨-, hdamaged⟩ := failed_fetch hshort store
  obtain ⟨hentry, hseen, -, -, -, hothers⟩ := hdamaged rfl
  obtain ⟨hspared, -⟩ := failed_fetch hbroken store
  obtain ⟨hsame, htx⟩ := hspared rfl nofun
  refine ⟨⟨hshort, congrArg Entry.record hentry, congrArg Seen.has hseen, ?_⟩, hbroken, hsame, htx⟩
  exact congrArg Seen.content (hothers "c/d" (by decide))

end Entry

end Depot
