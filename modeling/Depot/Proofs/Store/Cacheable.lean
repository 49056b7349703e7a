/-
Links that can be cached. The relpath of a link names a file unless the
link has no digest, a host that is two points and no directories
(`Link.isValid_relpath_iff`): each piece of a URL is checked on its own,
and the directory of such a link is made of the host alone. Where the
relpath is refused, everything that is done through the entry of the link
is refused, and else nothing is (`cacheable_iff`).
-/
import Depot.Proofs.Url.Segments
import Depot.Proofs.Store.Handles

namespace Depot

open Text Transaction

namespace Link

variable {raw : String} {link : Link}

-- ===================================================== relpaths of links

/-- Whether a link leads to a host named by two points and through no
directory. Without a digest its content is kept nowhere. -/
def Strays (link : Link) : Prop :=
  link.hash = none
    ∧ (∃ a, link.url.authority = some a ∧ a.host = some ".." ∧ a.port = none)
    ∧ (link.url.path.segments?.getD []).dropLast.filter (· ≠ "") = []

/-- The text of host and port is two points only if the host is. -/
theorem place_eq_up {a : Url.Authority} {host : String} (h : a.host = some host) :
    a.place = ".." ↔ host = ".." ∧ a.port = none := by
  unfold Url.Authority.place
  rw [h]
  cases a.port with
  | none => simp
  | some port =>
      simp only [Option.getD_some, reduceCtorEq, and_false, iff_false]
      intro heq
      have hcolon : ':' ∈ (host ++ ":" ++ toString port).toList := by simp
      rw [heq] at hcolon
      revert hcolon
      decide

/-- No directory of a link is decoded to two points, if it is the first. -/
theorem dirs_eq_up (h : parse raw = .ok link) : link.dirs = [".."]
    ↔ (∃ a, link.url.authority = some a ∧ a.host = some ".." ∧ a.port = none)
      ∧ (link.url.path.segments?.getD []).dropLast.filter (· ≠ "") = [] := by
  have hfirst := Url.parse_firstStays (of_parse h).1
  have hnone : ((link.url.path.segments?.getD []).dropLast.filter (· ≠ "")).map Url.decodeText
      ≠ [".."] := by
    intro heq
    obtain ⟨segment, hsegments, hup⟩ := List.map_eq_singleton_iff.1 heq
    have hdots := Url.isDotDot_of_decodeText hup
    rw [hfirst.filter hsegments] at hdots
    cases hdots
  unfold dirs
  dsimp only
  cases hauthority : link.url.authority with
  | none => simpa using hnone
  | some a =>
      cases hhost : a.host with
      | none => simpa [hhost] using hnone
      | some host =>
          simp only [Option.isSome_some, ↓reduceIte, List.singleton_append, List.cons.injEq,
            place_eq_up hhost, List.map_eq_nil_iff, Option.some.injEq, exists_eq_left', hhost]

/-- The relpath of a link names a file unless the link strays. -/
theorem isValid_relpath_iff (h : parse raw = .ok link) :
    Relpath.isValid link.relpath = true ↔ ¬link.Strays := by
  have hbase := (of_parse h).2
  unfold Strays
  cases hhash : link.hash with
  | some spec =>
      rw [relpath_of_hash hhash]
      simp [Relpath.isValid_ofHash (isDigest_hash h hhash) hbase]
  | none =>
      rw [relpath_of_no_hash hhash, Relpath.isValid_ofDirs _ hbase, Ne, dirs_eq_up h]
      simp

/-- A link that is given a digest has a relpath that names a file. -/
theorem isValid_withHash (h : parse raw = .ok link) {text : String} {spec : HashSpec}
    (hspec : HashSpec.parse text = .ok spec) :
    Relpath.isValid (link.withHash spec).relpath = true :=
  Relpath.isValid_ofHash (HashSpec.of_parse hspec).1 (of_parse h).2

end Link

namespace Entry

variable {e : Entry} {tx t : Transaction} {store : Store}

-- ===================================================== entries

/-- Whether content can be cached through a handle: it can be set and
deleted, what a download yields is taken in, and a fetch that fails does
so before anything is to be written. -/
structure Cacheable (e : Entry) (tx : Transaction) : Prop where
  set : ∀ content date, (e.setContent tx content date).result = .ok ()
  delete : (e.deleteContent tx).result = .ok ()
  fetch : ∀ web now url source d, e.target tx url = .ok source → e.download web source = .ok d →
    (e.fetch tx web now url).result = .ok ()
  failed : ∀ web now url err, (e.fetch tx web now url).result = .error err →
    e.target tx url = .error err
      ∨ ∃ source, e.target tx url = .ok source ∧ e.download web source = .error err

theorem save_ok (h : tx.writable = true) (e : Entry) : (e.save tx).result = .ok () := by
  unfold save persist Transaction.set change
  rw [h]
  rfl

theorem changeBlob_valid {relpath : String} (hw : tx.writable = true)
    (hvalid : Relpath.isValid relpath = true) (content : Option Bytes) :
    tx.changeBlob relpath content = .ok { tx with blobs := tx.blobs.insert relpath content } := by
  unfold changeBlob
  rw [hw, hvalid]
  rfl

theorem changeBlob_invalid {relpath : String} (hw : tx.writable = true)
    (hvalid : Relpath.isValid relpath = false) (content : Option Bytes) :
    tx.changeBlob relpath content = .error (.invalidRelpath relpath) := by
  unfold changeBlob
  rw [hw, hvalid]
  rfl

theorem setContent_ok (hw : tx.writable = true) (hvalid : Relpath.isValid e.relpath = true)
    (content : Bytes) (date : String) : (e.setContent tx content date).result = .ok () := by
  unfold setContent setBlob
  dsimp only
  rw [changeBlob_valid hw hvalid]
  apply save_ok
  exact hw

theorem deleteContent_ok (hw : tx.writable = true) (hvalid : Relpath.isValid e.relpath = true) :
    (e.deleteContent tx).result = .ok () := by
  unfold deleteContent deleteBlob
  rw [changeBlob_valid hw hvalid]
  apply save_ok
  exact hw

/-- A download that fails deletes the content, or does nothing. -/
theorem fetch_of_error {web : Web} {url : Option String} {source : String} {err : FetchError}
    (hsource : e.target tx url = .ok source) (hdownload : e.download web source = .error err)
    (now : String) :
    e.fetch tx web now url = if isDamage err then
        { (e.deleteContent tx).inFetch with
          result := (e.deleteContent tx).inFetch.result.bind fun _ => .error err }
      else ⟨e, tx, .error err⟩ := by
  unfold Entry.fetch
  rw [hsource]
  dsimp only
  rw [hdownload]

/-- What is downloaded is taken in, or refused, as any content is. -/
theorem fetch_of_ok {web : Web} {url : Option String} {source : String} {d : Download}
    (hsource : e.target tx url = .ok source) (hdownload : e.download web source = .ok d)
    (now : String) :
    e.fetch tx web now url = ((e.withDownload source d).setContent tx d.content
      ((d.headers.lastModified <|> e.record.lastModified).getD now)).inFetch := by
  unfold Entry.fetch
  rw [hsource]
  dsimp only
  rw [hdownload]

/-- A relpath that names a file is all that it takes. -/
theorem cacheable_of_valid (hw : tx.writable = true) (hvalid : Relpath.isValid e.relpath = true) :
    e.Cacheable tx where
  set := setContent_ok hw hvalid
  delete := deleteContent_ok hw hvalid
  fetch web now url source d hsource hdownload := by
    rw [fetch_of_ok hsource hdownload]
    unfold Step.inFetch
    rw [setContent_ok (e := e.withDownload source d) hw hvalid]
    rfl
  failed web now url err h := by
    cases hsource : e.target tx url with
    | error cause =>
        unfold Entry.fetch at h
        rw [hsource] at h
        cases h
        exact .inl rfl
    | ok source =>
        refine .inr ⟨source, rfl, ?_⟩
        cases hdownload : e.download web source with
        | error cause =>
            -- damaged content is deleted, which is not refused
            rw [fetch_of_error hsource hdownload] at h
            dsimp only [Step.inFetch] at h
            rw [deleteContent_ok hw hvalid] at h
            split at h <;> cases h <;> rfl
        | ok d =>
            rw [fetch_of_ok hsource hdownload] at h
            unfold Step.inFetch at h
            rw [setContent_ok (e := e.withDownload source d) hw hvalid] at h
            cases h

/-- What is refused where the relpath names no file. -/
structure Refuses (e : Entry) (tx : Transaction) : Prop where
  set : ∀ content date, (e.setContent tx content date).result = .error (.invalidRelpath e.relpath)
  delete : (e.deleteContent tx).result = .error (.invalidRelpath e.relpath)
  fetch : ∀ web now url source d, e.target tx url = .ok source → e.download web source = .ok d →
    (e.fetch tx web now url).result = .error (.store (.invalidRelpath e.relpath))

theorem setContent_refused (hw : tx.writable = true) (hvalid : Relpath.isValid e.relpath = false)
    (content : Bytes) (date : String) :
    (e.setContent tx content date).result = .error (.invalidRelpath e.relpath) := by
  unfold setContent setBlob
  dsimp only
  rw [changeBlob_invalid hw hvalid]

theorem refuses_of_invalid (hw : tx.writable = true) (hvalid : Relpath.isValid e.relpath = false) :
    e.Refuses tx where
  set := setContent_refused hw hvalid
  delete := by
    unfold deleteContent deleteBlob
    rw [changeBlob_invalid hw hvalid]
  fetch web now url source d hsource hdownload := by
    rw [fetch_of_ok hsource hdownload]
    unfold Step.inFetch
    rw [setContent_refused (e := e.withDownload source d) hw hvalid]
    rfl

/-- A handle that a link is mapped to is on the relpath of the link, and the
transaction still may write. -/
theorem of_ofLink {algo : Digest.Algo} {link : Link}
    (h : ofLink tx store algo link = .ok (e, t)) :
    e.relpath = link.relpath ∧ t.writable = tx.writable := by
  unfold ofLink at h
  split at h
  · cases h
  · dsimp only at h
    split at h
    · obtain ⟨u, hset, heq⟩ := ok_of_map h
      cases heq
      obtain ⟨-, rfl⟩ := change_eq hset
      exact ⟨rfl, rfl⟩
    · cases h
      exact ⟨rfl, rfl⟩

end Entry

/-- The relpath of a link, as it is read or given a digest, names a file
unless the link strays. Through the handle that a transaction that may
write maps it to, content then is cached; for a link that strays it is
refused. -/
theorem Link.cacheable_iff {raw : String} {link linked : Link} (h : parse raw = .ok link)
    (hlinked : linked = link
      ∨ ∃ text spec, HashSpec.parse text = .ok spec ∧ linked = link.withHash spec) :
    (Relpath.isValid linked.relpath = true ↔ ¬linked.Strays)
      ∧ ∀ (tx : Transaction) (store : Store) (algo : Digest.Algo) (e : Entry) (t : Transaction),
        tx.writable = true → Entry.ofLink tx store algo linked = .ok (e, t) →
          (¬linked.Strays → e.Cacheable t) ∧ (linked.Strays → e.Refuses t) := by
  have hvalid : Relpath.isValid linked.relpath = true ↔ ¬linked.Strays := by
    rcases hlinked with rfl | ⟨text, spec, hspec, rfl⟩
    · exact isValid_relpath_iff h
    · exact iff_of_true (isValid_withHash h hspec) fun hstrays => nomatch hstrays.1
  refine ⟨hvalid, fun tx store algo e t hw hmap => ?_⟩
  obtain ⟨hrelpath, hwritable⟩ := Entry.of_ofLink hmap
  rw [hw] at hwritable
  rw [← hrelpath] at hvalid
  refine ⟨fun hno => Entry.cacheable_of_valid hwritable (hvalid.2 hno), fun hstrays => ?_⟩
  refine Entry.refuses_of_invalid hwritable ?_
  rw [← Bool.not_eq_true]
  exact fun h => hvalid.1 h hstrays

set_option maxRecDepth 20000 in
/-- A host of one point is a directory like others, and one of two points
is none. -/
theorem Link.cacheable_of_point :
    (∃ link e t, parse "http://./x" = .ok link
      ∧ Entry.ofLink { writable := true, serial := 0, view := some {} } { root := "depot" } .sha256
          link = .ok (e, t)
      ∧ Relpath.isValid link.relpath = true ∧ e.Cacheable t)
    ∧ ∃ link e t, parse "http://../x" = .ok link
      ∧ Entry.ofLink { writable := true, serial := 0, view := some {} } { root := "depot" } .sha256
          link = .ok (e, t)
      ∧ Relpath.isValid link.relpath = false ∧ e.Refuses t := by
  constructor
  · have hparse : parse "http://./x"
        = .ok ⟨⟨"http", some { host := some "." }, .segments ["x"], none, none⟩, none, none⟩ := rfl
    have hno : ¬Strays ⟨⟨"http", some { host := some "." }, .segments ["x"], none, none⟩,
        none, none⟩ := by
      intro hstrays
      obtain ⟨-, ⟨a, ha, hhost, -⟩, -⟩ := hstrays
      cases ha
      exact absurd hhost (by decide)
    obtain ⟨hvalid, hmapped⟩ := cacheable_iff hparse (.inl rfl)
    obtain ⟨hcacheable, -⟩ := hmapped { writable := true, serial := 0, view := some {} }
      { root := "depot" } .sha256 _ _ rfl rfl
    exact ⟨_, _, _, hparse, rfl, hvalid.2 hno, hcacheable hno⟩
  · have hparse : parse "http://../x"
        = .ok ⟨⟨"http", some { host := some ".." }, .segments ["x"], none, none⟩, none, none⟩ := rfl
    have hstrays : Strays ⟨⟨"http", some { host := some ".." }, .segments ["x"], none, none⟩,
        none, none⟩ := ⟨rfl, ⟨_, rfl, rfl, rfl⟩, rfl⟩
    obtain ⟨hvalid, hmapped⟩ := cacheable_iff hparse (.inl rfl)
    obtain ⟨-, hrefuses⟩ := hmapped { writable := true, serial := 0, view := some {} }
      { root := "depot" } .sha256 _ _ rfl rfl
    refine ⟨_, _, _, hparse, rfl, ?_, hrefuses hstrays⟩
    rw [← Bool.not_eq_true]
    exact fun h => hvalid.1 h hstrays

end Depot
