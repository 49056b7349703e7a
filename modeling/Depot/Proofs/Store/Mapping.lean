/-
Mapping a link twice. Mapping writes at most one record, that of the
relpath of the link, and there sets at most what the link declares and,
where there was none, its URL (`describedBy`). To describe a record again
changes nothing (`describedBy_describedBy`), and a record that is written
is read back as it was (`load_mapped`); so the second time there is
nothing new to write.
-/
import Depot.Proofs.Store.Calls

namespace Depot.Entry

open Transaction

variable {tx t : Transaction} {store : Store} {algo : Digest.Algo} {link : Link} {e : Entry}
  {relpath : String}

/-- What a link says of a record. -/
theorem describedBy_eq (link : Link) (r : FileRecord) :
    describedBy link r = { r with
      hash := (link.hash.map HashSpec.toText).or r.hash
      egg := link.egg.or r.egg
      url := r.url.or (some link.withoutFragment) } := by
  unfold describedBy
  cases link.hash <;> cases link.egg <;> cases r.url <;> rfl

/-- What a link declares is declared once. -/
theorem describedBy_describedBy (link : Link) (r : FileRecord) :
    describedBy link (describedBy link r) = describedBy link r := by
  unfold describedBy
  cases link.hash <;> cases link.egg <;> cases r.url <;> rfl

/-- Mapping answers a handle on the relpath of the link. -/
theorem eq_of_ofLink (h : ofLink tx store algo link = .ok (e, t)) :
    e = ⟨link.relpath, e.record, algo⟩ := by
  unfold ofLink at h
  split at h
  · cases h
  · dsimp only at h
    split at h
    · obtain ⟨u, -, heq⟩ := ok_of_map h
      cases heq
      rfl
    · cases h
      rfl

/-- What a transaction that may write has mapped is loaded afterwards. -/
theorem load_mapped (h : ofLink tx store algo link = .ok (e, t)) (hw : tx.writable = true) :
    load t store algo link.relpath = .ok (some e) := by
  obtain ⟨found, hload, -, ⟨rfl, hold⟩ | ⟨-, -, -, hset⟩⟩ := ofLink_spec h
  · -- nothing was written, as the record was there
    obtain ⟨old, rfl, hrecord⟩ := hold hw
    rw [hload, of_load hload, eq_of_ofLink h, hrecord]
  · rw [load_pending hset, ← eq_of_ofLink h]

/-- A link whose record says all that it declares is mapped without a
change. -/
theorem ofLink_of_described (hload : load t store algo link.relpath = .ok (some e))
    (hdescribed : describedBy link e.record = e.record) :
    ofLink t store algo link = .ok (e, t) := by
  unfold ofLink
  rw [hload]
  dsimp only [Option.map_some, Option.getD_some]
  rw [if_neg, hdescribed, ← of_load hload]
  rintro ⟨-, hnone | hne⟩
  · cases hnone
  · exact hne hdescribed

/-- Mapping a link again answers the same and changes nothing. The first time
leaves all blobs and all records but that of the relpath alone, and a
transaction that may not write as a whole. The record is then the one that
was there, or a new one, with the digest and the egg name that the link
declares, if it does, and with the URL of the link if there was none. -/
theorem ofLink_again (h : ofLink tx store algo link = .ok (e, t)) :
    ofLink t store algo link = .ok (e, t)
      ∧ e.relpath = link.relpath
      ∧ (tx.writable = false → t = tx)
      ∧ t = { tx with records := t.records }
      ∧ (∀ key, key ≠ keyOf link.relpath →
          t.records[key]? = tx.records[key]? ∧ t.get store key = tx.get store key)
      ∧ (∀ store' relpath, t.seen store' relpath = tx.seen store' relpath)
      ∧ ∃ found old, load tx store algo link.relpath = .ok found
        ∧ old = (found.map Entry.record).getD {}
        ∧ e.record = { old with
            hash := (link.hash.map HashSpec.toText).or old.hash
            egg := link.egg.or old.egg
            url := old.url.or (some link.withoutFragment) }
        ∧ (tx.writable = true → load t store algo link.relpath = .ok (some e)) := by
  obtain ⟨found, hload, hrecord, hwritten⟩ := ofLink_spec h
  have hrelpath : e.relpath = link.relpath := (of_ofLink h).1
  have hblobs : t = { tx with records := t.records } := by
    rcases hwritten with ⟨rfl, -⟩ | ⟨-, hhandled, hblobs, -⟩
    · rfl
    · rw [hhandled.elsewhere.same, hblobs]
  have helsewhere : ∀ key, key ≠ keyOf link.relpath →
      t.records[key]? = tx.records[key]? ∧ t.get store key = tx.get store key := by
    intro key hkey
    rcases hwritten with ⟨rfl, -⟩ | ⟨-, hhandled, -, -⟩
    · exact ⟨rfl, rfl⟩
    · exact ⟨hhandled.elsewhere.records key hkey, hhandled.elsewhere.get hkey⟩
  refine ⟨?_, hrelpath, fun hreads => ofLink_of_reader hreads h, hblobs, helsewhere,
    fun store' relpath => ?_, found, _, hload, rfl, hrecord.trans (describedBy_eq ..),
    load_mapped h⟩
  · cases hw : tx.writable with
    | false =>
        obtain rfl := ofLink_of_reader hw h
        exact h
    | true =>
        refine ofLink_of_described (load_mapped h hw) ?_
        rw [hrecord, describedBy_describedBy]
  · rw [hblobs]
    rfl

set_option maxRecDepth 20000 in
/-- A committed record without a digest and with a URL gets the digest and
the egg name of a link, and keeps its URL and its size. -/
theorem ofLink_again_amends : ∃ (tx t : Transaction) (store : Store) (link : Link) (e : Entry),
    Link.parse "http://h/a.zip#egg=a&md5=0f5f13cf0b14c88bd431ef163b63d68d" = .ok link
    ∧ load tx store .md5 link.relpath
      = .ok (some ⟨link.relpath, { url := some "http://i/a.zip", size := some 3 }, .md5⟩)
    ∧ ofLink tx store .md5 link = .ok (e, t)
    ∧ e.record = {
        hash := some "md5=0f5f13cf0b14c88bd431ef163b63d68d", egg := some "a",
        url := some "http://i/a.zip", size := some 3 }
    ∧ t.records[keyOf link.relpath]? = some (some e.record.toJson)
    ∧ ofLink t store .md5 link = .ok (e, t) := by
  let record : FileRecord := { url := some "http://i/a.zip", size := some 3 }
  let link : Link := ⟨⟨"http", some { host := some "h" }, .segments ["a.zip"], none,
      some "egg=a&md5=0f5f13cf0b14c88bd431ef163b63d68d"⟩,
    some ⟨.md5, "0f5f13cf0b14c88bd431ef163b63d68d"⟩, some "a"⟩
  let view : Index :=
    { records := (∅ : Std.ExtTreeMap String String).insert (keyOf link.relpath)
        record.toJson.compact }
  let tx : Transaction := { writable := true, serial := 0, view := some view }
  have hlink : Link.parse "http://h/a.zip#egg=a&md5=0f5f13cf0b14c88bd431ef163b63d68d"
      = .ok link := rfl
  have hcounted : record.Counted := by
    intro n hn
    cases hn
    decide
  have hload : load tx { root := "depot" } .md5 link.relpath
      = .ok (some ⟨link.relpath, record, .md5⟩) :=
    load_committed Std.ExtTreeMap.getElem?_empty Std.ExtTreeMap.getElem?_insert_self hcounted .md5
  have hmap : ofLink tx { root := "depot" } .md5 link
      = .ok (⟨link.relpath, describedBy link record, .md5⟩, { tx with
        records := tx.records.insert (keyOf link.relpath)
          (some (describedBy link record).toJson) }) := by
    unfold ofLink
    rw [hload]
    rfl
  obtain ⟨hagain, -⟩ := ofLink_again hmap
  exact ⟨tx, _, _, link, _, hlink, hload, hmap, rfl, Std.ExtTreeMap.getElem?_insert_self, hagain⟩

end Depot.Entry
