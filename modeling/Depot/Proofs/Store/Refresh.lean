/-
Fetching again what a link with an egg name leads to. Such a link is there
to have its content replaced, so a fetch declares no digest of it. But its
entry is shared with links to the same URL that have no egg name, and what
a fetch declares for those stays: `refresh_iff` says that through the
handle of a link with an egg name, and without a digest of its own,
content is taken in just if it has the digest that was declared at its
relpath before, if one was; and that none was if nothing has been done at
the relpath but what `Call.Pins` leaves out.
-/
import Depot.Proofs.Store.Calls
import Depot.Proofs.Store.Collisions

namespace Depot

open Transaction

-- ===================================================== downloads

namespace Download

/-- The octets of a body that is read to its end, if it is. -/
def delivered? : List BodyEvent → Option Bytes
  | [] => some []
  | .data [] :: _ => some []
  | .data (b :: bs) :: rest => (delivered? rest).map ((b :: bs) ++ ·)
  | .interrupted :: rest => delivered? rest
  | .failed _ :: _ => none

/-- A body is delivered if it comes to its end, and then what arrives of
it is. -/
theorem delivered?_eq_some_iff {body : List BodyEvent} {bytes : Bytes} :
    delivered? body = some bytes ↔ failure? body = none ∧ arrived body = bytes := by
  induction body generalizing bytes with
  | nil => simp [delivered?, failure?, arrived]
  | cons event rest ih =>
      cases event with
      | data piece =>
          cases piece with
          | nil =>
              rw [failure?_cons_of_stop rfl, arrived_cons_of_stop rfl]
              simp [delivered?, BodyEvent.cause?]
          | cons b bs =>
              rw [failure?_cons_of_goesOn rfl, arrived_cons_of_goesOn rfl]
              unfold delivered?
              rw [Option.map_eq_some_iff]
              constructor
              · rintro ⟨bytes', hrest, rfl⟩
                obtain ⟨hfailure, rfl⟩ := ih.1 hrest
                exact ⟨hfailure, rfl⟩
              · rintro ⟨hfailure, rfl⟩
                exact ⟨_, ih.2 ⟨hfailure, rfl⟩, rfl⟩
      | interrupted =>
          rw [failure?_cons_of_goesOn rfl, arrived_cons_of_goesOn rfl]
          exact ih
      | failed cause =>
          rw [failure?_cons_of_stop rfl]
          constructor
          · intro h
            cases h
          · rintro ⟨h, -⟩
            cases h

/-- How many octets come with events. -/
def weight : List BodyEvent → Nat
  | [] => 0
  | .data bytes :: rest => bytes.length + weight rest
  | _ :: rest => weight rest

/-- What arrives is no more than what comes. -/
theorem length_arrived (body : List BodyEvent) : (arrived body).length ≤ weight body := by
  induction body with
  | nil => exact Nat.le_refl _
  | cons event rest ih =>
      have hweight : weight (event :: rest) = event.bytes.length + weight rest := by
        cases event <;> simp [weight, BodyEvent.bytes]
      rw [hweight]
      cases hgoesOn : event.goesOn with
      | true =>
          rw [arrived_cons_of_goesOn hgoesOn, List.length_append]
          omega
      | false =>
          rw [arrived_cons_of_stop hgoesOn]
          exact Nat.zero_le _

end Download

namespace Entry

variable {algo : Digest.Algo} {store : Store} {tx t : Transaction} {e : Entry}

/-- A response that is delivered as it says. -/
structure Sends (response : Response) (bytes : Bytes) : Prop where
  success : isSuccess response.status = true
  delivered : Download.delivered? response.body = some bytes
  size : ∀ n, declaredSize response.headers = some n → n = bytes.length

/-- What is delivered is refused only if the entry declares a digest that
it does not have. -/
theorem check_of_sends {response : Response} {bytes : Bytes} (h : Sends response bytes)
    (e : Entry) (url : String) :
    e.check url response =
      match e.hash? with
      | some spec =>
          if spec.accepts bytes then .ok ⟨bytes, e.algo.hexDigest bytes, response.headers⟩
          else .error (.digestMismatch e.relpath spec.algo.name spec.value
            (e.algo.hexDigest bytes))
      | none => .ok ⟨bytes, e.algo.hexDigest bytes, response.headers⟩ := by
  obtain ⟨hfailure, rfl⟩ := Download.delivered?_eq_some_iff.1 h.delivered
  have hsize : (declaredSize response.headers).any
      (· ≠ (Download.arrived response.body).length) = false := by
    cases hdeclared : declaredSize response.headers with
    | none => rfl
    | some n => simpa using h.size n hdeclared
  rw [check_eq, hfailure]
  unfold verdict
  rw [if_neg (by simp [h.success])]
  exact if_neg (by rw [hsize]; exact Bool.false_ne_true)

/-- What is taken in is no more than what comes. -/
theorem length_of_check {url : String} {response : Response} {d : Download}
    (h : e.check url response = .ok d) :
    d.content.length ≤ Download.weight response.body := by
  rw [check_eq] at h
  obtain ⟨-, -, -, -, rfl⟩ := verdict_ok_iff.1 h
  exact Download.length_arrived response.body

-- ===================================================== fetches

/-- The URL of a handle and that of a fetch are enough to have one to ask. -/
theorem target_ok (hw : tx.writable = true) (hurl : e.record.url.isSome = true)
    (url : Option String) : ∃ source, e.target tx url = .ok source := by
  obtain ⟨own, hown⟩ := Option.isSome_iff_exists.1 hurl
  unfold target
  rw [hown, hw]
  cases url with
  | none => exact ⟨_, rfl⟩
  | some given => exact ⟨_, rfl⟩

/-- A fetch whose download fails is no success. -/
theorem fetch_fails {web : Web} {url : Option String} {source : String} {err : FetchError}
    (hsource : e.target tx url = .ok source) (hdownload : e.download web source = .error err)
    (now : String) : (e.fetch tx web now url).result ≠ .ok () := by
  rw [fetch_of_error hsource hdownload]
  split
  · cases (e.deleteContent tx).inFetch.result <;> nofun
  · nofun

/-- A fetch of what is delivered succeeds, and the content is taken in, just
if the entry declares no digest that it does not have. -/
theorem fetch_of_sends {web : Web} {url : Option String} {source : String} {response : Response}
    {bytes : Bytes} (hw : tx.writable = true) (hvalid : Relpath.isValid e.relpath = true)
    (hsource : e.target tx url = .ok source) (hweb : web source = .ok response)
    (h : Sends response bytes) (now : String) (store : Store) :
    ((e.fetch tx web now url).result = .ok ()
        ↔ ∀ spec, e.hash? = some spec → spec.accepts bytes = true)
      ∧ ((e.fetch tx web now url).result = .ok () →
        (e.fetch tx web now url).tx.getBlob store e.relpath = .ok (some bytes)) := by
  have hdownload : e.download web source = e.check source response := by
    unfold download
    rw [hweb]
  rw [check_of_sends h] at hdownload
  have htaken : ∀ digest, e.download web source = .ok ⟨bytes, digest, response.headers⟩ →
      (e.fetch tx web now url).result = .ok ()
        ∧ (e.fetch tx web now url).tx.getBlob store e.relpath = .ok (some bytes) := by
    intro digest hok
    rw [fetch_of_ok hsource hok, setContent_eq (e := e.withDownload source _) hw hvalid]
    exact ⟨rfl, Patch.getBlob_apply (p := ⟨e.relpath, _, some (some bytes)⟩) rfl tx store⟩
  cases hspec : e.hash? with
  | none =>
      rw [hspec] at hdownload
      obtain ⟨hresult, hblob⟩ := htaken _ hdownload
      exact ⟨iff_of_true hresult nofun, fun _ => hblob⟩
  | some spec =>
      rw [hspec] at hdownload
      dsimp only at hdownload
      cases haccepts : spec.accepts bytes with
      | true =>
          rw [if_pos haccepts] at hdownload
          obtain ⟨hresult, hblob⟩ := htaken _ hdownload
          refine ⟨iff_of_true hresult ?_, fun _ => hblob⟩
          intro spec' heq
          cases heq
          exact haccepts
      | false =>
          rw [if_neg (by simp [haccepts])] at hdownload
          have hfails := fetch_fails hsource hdownload now
          refine ⟨iff_of_false hfails fun hall => ?_, fun hok => absurd hok hfails⟩
          rw [hall spec rfl] at haccepts
          cases haccepts

/-- What fetches through a handle depend on. -/
structure Alike (e e' : Entry) : Prop where
  relpath : e'.relpath = e.relpath
  egg : e'.record.egg = e.record.egg
  hash : e'.record.hash = e.record.hash
  url : e.record.url.isSome = true → e'.record.url.isSome = true

/-- A fetch through the handle of an entry with an egg name declares no
digest, and changes nothing else that the next one depends on. -/
theorem alike_fetch (hegg : e.record.egg.isSome = true) (tx : Transaction) (web : Web)
    (now : String) (url : Option String) : Alike e (e.fetch tx web now url).entry := by
  have hfetched := fetch_cases e tx web now url
  generalize e.fetch tx web now url = step at hfetched
  have hnot : ¬(e.record.hash.isNone = true ∧ e.record.egg.isNone = true) := by
    intro h
    rw [Option.isNone_iff_eq_none.1 h.2] at hegg
    cases hegg
  cases hfetched with
  | unasked | spared | damaged | damagedStray => exact ⟨rfl, rfl, rfl, id⟩
  | taken _ _ hrecord | takenStray _ _ hrecord =>
      subst hrecord
      exact ⟨rfl, rfl, if_neg hnot, fun _ => rfl⟩

/-- A transaction goes on writing. -/
theorem fetch_writable (e : Entry) (tx : Transaction) (web : Web) (now : String)
    (url : Option String) : (e.fetch tx web now url).tx.writable = tx.writable := by
  obtain ⟨relpath, hhandled⟩ :=
    Call.handled .sha256 { root := "" } tx (.use (.fetch e web now url))
  have hsame := congrArg Transaction.writable hhandled.elsewhere.same
  exact hsame

/-- The handle and the transaction after fetches, one after the other, with
any web, at any time and from any URL. -/
def fetchAll (e : Entry) (tx : Transaction) :
    List (Web × String × Option String) → Entry × Transaction
  | [] => (e, tx)
  | (web, now, url) :: rest =>
      let step := e.fetch tx web now url
      fetchAll step.entry step.tx rest

theorem alike_fetchAll (fetches : List (Web × String × Option String)) (e : Entry)
    (tx : Transaction) (hegg : e.record.egg.isSome = true) :
    Alike e (e.fetchAll tx fetches).1 ∧ (e.fetchAll tx fetches).2.writable = tx.writable := by
  induction fetches generalizing e tx with
  | nil => exact ⟨⟨rfl, rfl, rfl, id⟩, rfl⟩
  | cons fetch rest ih =>
      obtain ⟨web, now, url⟩ := fetch
      have hfirst := alike_fetch hegg tx web now url
      obtain ⟨hrest, hwritable⟩ := ih (e.fetch tx web now url).entry (e.fetch tx web now url).tx
        (by rw [hfirst.egg]; exact hegg)
      unfold fetchAll
      exact ⟨⟨hrest.relpath.trans hfirst.relpath, hrest.egg.trans hfirst.egg,
          hrest.hash.trans hfirst.hash, fun h => hrest.url (hfirst.url h)⟩,
        hwritable.trans (fetch_writable e tx web now url)⟩

-- ===================================================== declarations

/-- No digest is declared for a relpath. -/
def Undeclared (tx : Transaction) (store : Store) (relpath : String) : Prop :=
  ∀ spec, ¬Declares tx store relpath spec

/-- A call may declare a digest for a relpath that a link with an egg name,
and without a digest, leads to: it sets one, or writes the record of a
handle that has one, or fetches through a handle without an egg name. -/
def Call.Pins (relpath : String) : Call → Prop
  | .use (.fetch e ..) => e.relpath = relpath ∧ (e.record.egg = none ∨ e.record.hash ≠ none)
  | .use (.deleteContent e) | .setContent e .. | .setUrl e _ | .setLastModified e _ =>
      e.relpath = relpath ∧ e.record.hash ≠ none
  | .setHash e spec => e.relpath = relpath ∧ spec ≠ none
  | .use (.map _) | .use (.upload ..) | .use (.delete _) => False

/-- What is declared is what the entry declares that is found. -/
theorem declares_iff_of_load {relpath : String} {found : Option Entry}
    (h : load tx store algo relpath = .ok found) (spec : HashSpec) :
    Declares tx store relpath spec ↔ ∃ old, found = some old ∧ old.hash? = some spec := by
  refine ⟨fun hdeclares => ?_, fun ⟨old, hfound, hspec⟩ => ⟨algo, old, hfound ▸ h, hspec⟩⟩
  obtain ⟨algo', e', hload, hspec⟩ := hdeclares
  unfold load at h hload
  split at h
  · cases h
  · next hget =>
    rw [hget] at hload
    cases hload
  · next value hget =>
    rw [hget] at hload
    obtain ⟨r, hr, rfl⟩ := ok_of_map h
    obtain ⟨r', hr', heq⟩ := ok_of_map hload
    cases heq
    rw [hr] at hr'
    cases hr'
    exact ⟨_, rfl, (hash?_congr rfl).trans hspec⟩

theorem hash?_of_none (h : e.record.hash = none) : e.hash? = none := by
  unfold hash?
  rw [h]
  rfl

/-- No upload goes where a link leads. -/
theorem ofUpload_ne_relpath {raw : String} {link : Link} (hlink : Link.parse raw = .ok link)
    {user index basename : String} (hnames : isUpload user index basename = true)
    (algo : Digest.Algo) (content : Bytes) :
    Relpath.ofUpload user index (HashSpec.ofContent algo content) basename ≠ link.relpath := by
  intro heq
  have hsound : Origin.Sound (.uploaded user index (HashSpec.ofContent algo content) basename) :=
    .upload hnames (.inr ⟨algo, content, rfl⟩)
  exact Origin.pieces_ne link user index _ basename
    ((Origin.relpath_inj (.read hlink) hsound).1 heq.symm)

/-- A record of the relpath of a link without a digest, which a call writes
that does not pin it, declares none. -/
theorem Call.Writes.hash?_eq_none {c : Call} {p : Patch} {raw : String} {link : Link}
    (h : Writes algo store tx c p) (hlink : Link.parse raw = .ok link) (hhash : link.hash = none)
    (hrelpath : p.relpath = link.relpath) (hpins : ¬c.Pins link.relpath)
    (hbefore : Undeclared tx store link.relpath) {r : FileRecord} (hr : p.record = some r) :
    (Entry.mk p.relpath r algo).hash? = none := by
  have hnone : ∀ {e : Entry}, e.relpath = link.relpath →
      ¬(e.relpath = link.relpath ∧ e.record.hash ≠ none) → e.record.hash = none :=
    fun heq hnot => by_contra fun hne => hnot ⟨heq, hne⟩
  unfold Pins at hpins
  cases h with
  | @map _ link' found hlink' hload hnew =>
      cases hr
      dsimp only at hrelpath
      have hhash' : link'.hash = none := by
        have hpieces := (Origin.relpath_inj (.read hlink') (.read hlink)).1 hrelpath
        rcases ((Origin.pieces_eq_iff (.read hlink') (.read hlink)).1 hpieces).2 with
          ⟨_, spec, -, hspec, -⟩ | h
        · rw [hhash] at hspec
          cases hspec
        · exact h.1
      rw [hash?_describedBy hlink', hhash', Option.none_or]
      cases found with
      | none => rfl
      | some old =>
          by_contra hne
          obtain ⟨spec, hspec⟩ := Option.ne_none_iff_exists'.1 hne
          exact hbefore spec ⟨algo, old, hrelpath ▸ hload, (hash?_congr rfl).trans hspec⟩
  | @fetch e _ _ _ _ d =>
      cases hr
      have hegg : e.record.egg ≠ none := fun hegg => hpins ⟨hrelpath, .inl hegg⟩
      have hown := hnone hrelpath fun h => hpins ⟨h.1, .inr h.2⟩
      refine hash?_of_none ?_
      show (if e.record.hash.isNone ∧ e.record.egg.isNone then _ else e.record.hash) = none
      rw [if_neg fun h => hegg (Option.isNone_iff_eq_none.1 h.2), hown]
  | fetchDamaged =>
      cases hr
      exact hash?_of_none (hnone hrelpath fun h => hpins ⟨h.1, .inr h.2⟩)
  | upload hnames hload =>
      rw [of_loadOrNew hload] at hrelpath
      exact absurd hrelpath (ofUpload_ne_relpath hlink hnames _ _)
  | deleteContent | setContent | setUrl | setLastModified =>
      cases hr
      exact hash?_of_none (hnone hrelpath hpins)
  | delete | deleteStray => cases hr
  | setHash e spec =>
      cases hr
      refine hash?_of_none ?_
      cases spec with
      | none => rfl
      | some spec => exact absurd ⟨hrelpath, nofun⟩ hpins

/-- A call that does not pin the relpath of such a link declares nothing
there. -/
theorem Call.undeclared {raw : String} {link : Link} (hlink : Link.parse raw = .ok link)
    (hhash : link.hash = none) (c : Call) (hpins : ¬c.Pins link.relpath)
    (hbefore : Undeclared tx store link.relpath) :
    Undeclared (c.apply algo store tx) store link.relpath := by
  rcases c.idle_or_writes algo store tx with hidle | ⟨hw, p, hwrites⟩
  · rw [hidle]
    exact hbefore
  · rw [hwrites.apply_eq hw]
    intro spec hdeclares
    by_cases hrelpath : p.relpath = link.relpath
    · obtain ⟨algo', e, hload, hspec⟩ := hdeclares
      rw [← hrelpath, p.load_apply] at hload
      obtain ⟨r, hr, rfl⟩ := Option.map_eq_some_iff.1 (Except.ok.inj hload)
      have hnone := hwrites.hash?_eq_none hlink hhash hrelpath hpins hbefore hr
      rw [hash?_congr (a := ⟨p.relpath, r, algo'⟩) (b := ⟨p.relpath, r, algo⟩) rfl, hnone] at hspec
      cases hspec
    · have helsewhere := (p.handled hw hwrites.valid).elsewhere
      exact hbefore spec ((helsewhere.declares_iff (Ne.symm hrelpath) spec).1 hdeclares)

end Entry

-- ===================================================== records that are read

namespace Transaction

variable {tx : Transaction} {store : Store}

/-- All records that a transaction reads are of entries, with sizes that
are counted in 64 bits. -/
structure Legible (tx : Transaction) (store : Store) : Prop where
  pending : ∀ (key : String) (value : Json), tx.records[key]? = some (some value) →
    ∃ r : FileRecord, r.Counted ∧ value = r.toJson
  committed : ∀ (key text : String), (tx.observed store).records[key]? = some text →
    ∃ r : FileRecord, r.Counted ∧ text = r.toJson.compact

/-- So an entry with such a size is found, or there is none. -/
theorem Legible.load (h : tx.Legible store) (algo : Digest.Algo) (relpath : String) :
    ∃ found, Entry.load tx store algo relpath = .ok found
      ∧ ∀ e, found = some e → e.record.Counted := by
  unfold Entry.load Transaction.get Entry.readRecord
  cases hpending : tx.records[Entry.keyOf relpath]? with
  | some pending =>
      cases pending with
      | none => exact ⟨none, rfl, fun _ he => nomatch he⟩
      | some value =>
          obtain ⟨r, hcounted, rfl⟩ := h.pending _ _ hpending
          dsimp only
          rw [r.ofJson?_toJson]
          exact ⟨_, rfl, fun e he => by cases he; exact hcounted⟩
  | none =>
      dsimp only
      cases htext : (tx.observed store).records[Entry.keyOf relpath]? with
      | none => exact ⟨none, rfl, fun _ he => nomatch he⟩
      | some text =>
          obtain ⟨r, hcounted, rfl⟩ := h.committed _ _ htext
          unfold readRecord Except.map
          dsimp only
          rw [hcounted.read_compact]
          dsimp only
          rw [r.ofJson?_toJson]
          exact ⟨_, rfl, fun e he => by cases he; exact hcounted⟩

/-- A patch of a record that is counted. -/
theorem Legible.patch (h : tx.Legible store) {p : Entry.Patch}
    (hcounted : ∀ r, p.record = some r → r.Counted) : (p.apply tx).Legible store := by
  refine ⟨fun key value hkey => ?_, h.committed⟩
  unfold Entry.Patch.apply at hkey
  dsimp only at hkey
  rw [Std.ExtTreeMap.getElem?_insert] at hkey
  split at hkey
  · obtain ⟨r, hr, rfl⟩ := Option.map_eq_some_iff.1 (Option.some.inj hkey)
    exact ⟨r, hcounted r hr, rfl⟩
  · exact h.pending key value hkey

/-- Who begins on the index that a transaction leaves. -/
theorem Legible.fresh {after : Store} (h : tx.Legible store) (hview : tx.view = some store.index)
    (hindex : after.index = tx.overlay store.index) (n : UInt64) (writable : Bool) :
    (Site.fresh after n writable).Legible after := by
  refine ⟨fun key value hkey => by simp [Site.fresh] at hkey, fun key text htext => ?_⟩
  have hcommitted := h.committed key text
  rw [observed_eq hview] at hcommitted
  rw [show (Site.fresh after n writable).observed after = tx.overlay store.index from hindex,
    getElem?_overlay] at htext
  cases hpending : tx.records[key]? with
  | none =>
      rw [hpending] at htext
      exact hcommitted htext
  | some pending =>
      rw [hpending] at htext
      obtain ⟨value, rfl, rfl⟩ := Option.map_eq_some_iff.1 htext
      obtain ⟨r, hr, rfl⟩ := h.pending key value hpending
      exact ⟨r, hr, rfl⟩

end Transaction

-- ===================================================== links with an egg name

namespace Entry

variable {algo : Digest.Algo} {store : Store} {tx t : Transaction} {e : Entry}

/-- The content that a call is given, and the size in the record of its
handle, are counted in 64 bits. -/
def Call.Small : Call → Prop
  | .use (.fetch e web ..) => e.record.Counted ∧ ∀ url response, web url = .ok response →
      Download.weight response.body ≤ Json.Reader.maxGathered
  | .use (.upload _ _ _ _ content) | .setContent _ content _ =>
      content.length ≤ Json.Reader.maxGathered
  | .setHash e _ | .setUrl e _ | .setLastModified e _ => e.record.Counted
  | .use (.map _) | .use (.deleteContent _) | .use (.delete _) => True

theorem counted_holding {r : FileRecord} {content : Bytes}
    (h : content.length ≤ Json.Reader.maxGathered) (date : String) :
    (r.holding content date).Counted := by
  intro n hn
  cases hn
  exact h

/-- Such a call writes records with such sizes, where it reads such. -/
theorem Call.Writes.counted {c : Call} {p : Patch} (h : Writes algo store tx c p) (hsmall : c.Small)
    (hlegible : tx.Legible store) {r : FileRecord} (hr : p.record = some r) : r.Counted := by
  cases h with
  | @map _ link found hlink hload hnew =>
      cases hr
      cases found with
      | none => nofun
      | some old =>
          obtain ⟨found, hfound, hcounted⟩ := hlegible.load algo link.relpath
          exact hcounted old (Except.ok.inj (hfound.symm.trans hload))
  | @fetch e web _ source _ d hsource hdownload =>
      cases hr
      unfold download at hdownload
      split at hdownload
      · cases hdownload
      · next response hweb =>
        exact counted_holding ((length_of_check hdownload).trans (hsmall.2 _ _ hweb)) _
  | fetchDamaged | deleteContent => cases hr; nofun
  | @upload _ _ _ _ content =>
      have hlength : content.length ≤ Json.Reader.maxGathered := hsmall
      cases hr
      exact counted_holding hlength _
  | @setContent _ content =>
      have hlength : content.length ≤ Json.Reader.maxGathered := hsmall
      cases hr
      exact counted_holding hlength _
  | delete | deleteStray => cases hr
  | setHash | setUrl | setLastModified => cases hr; exact hsmall

/-- Through a handle, however often one has fetched before, something can be
asked for, and what is delivered then is taken in just if it is `wanted`. -/
structure Refreshes (e : Entry) (t : Transaction) (store : Store) (wanted : Bytes → Prop) :
    Prop where
  asks : ∀ fetches url, ∃ source,
    (e.fetchAll t fetches).1.target (e.fetchAll t fetches).2 url = .ok source
  takes : ∀ fetches web now url source response bytes,
    (e.fetchAll t fetches).1.target (e.fetchAll t fetches).2 url = .ok source →
    web source = .ok response → Sends response bytes →
    let step := (e.fetchAll t fetches).1.fetch (e.fetchAll t fetches).2 web now url
    step.entry.relpath = e.relpath ∧ (step.result = .ok () ↔ wanted bytes)
      ∧ (step.result = .ok () → step.tx.getBlob store e.relpath = .ok (some bytes))

/-- So it is for an entry with an egg name and a URL, and what has the digest
that it declares. -/
theorem refreshes_of_egg (hw : t.writable = true) (hvalid : Relpath.isValid e.relpath = true)
    (hegg : e.record.egg.isSome = true) (hurl : e.record.url.isSome = true) (store : Store) :
    e.Refreshes t store fun bytes =>
      ∀ spec, e.hash? = some spec → spec.accepts bytes = true where
  asks fetches url := by
    obtain ⟨halike, hwritable⟩ := alike_fetchAll fetches e t hegg
    exact target_ok (hwritable.trans hw) (halike.url hurl) url
  takes fetches web now url source response bytes hsource hweb hsends := by
    obtain ⟨halike, hwritable⟩ := alike_fetchAll fetches e t hegg
    obtain ⟨hresult, hblob⟩ := fetch_of_sends (e := (e.fetchAll t fetches).1)
      (hwritable.trans hw) (by rw [halike.relpath]; exact hvalid) hsource hweb hsends now store
    have hthen := alike_fetch (e := (e.fetchAll t fetches).1) (by rw [halike.egg]; exact hegg)
      (e.fetchAll t fetches).2 web now url
    rw [halike.relpath] at hblob
    rw [hash?_congr halike.hash] at hresult
    exact ⟨hthen.relpath.trans halike.relpath, hresult, hblob⟩

/-- A link can be mapped where records can be read. -/
theorem ofLink_ok (h : tx.Legible store) (hw : tx.writable = true) (algo : Digest.Algo)
    (link : Link) : ∃ e t, ofLink tx store algo link = .ok (e, t) := by
  obtain ⟨found, hload, -⟩ := h.load algo link.relpath
  unfold ofLink persist Transaction.set
  rw [hload]
  dsimp only
  rw [change_of_writable hw]
  split
  · exact ⟨_, _, rfl⟩
  · exact ⟨_, _, rfl⟩

end Entry

namespace Site

variable {s t : Site} {who : Nat} {tx : Transaction} {algo : Digest.Algo}

/-- The request is a call that gives content and sizes counted in 64
bits. -/
def Request.Small (r : Request) : Prop := ∀ c, r = .call c → c.Small

/-- The request is a call that pins a relpath. -/
def Request.Pins (relpath : String) (r : Request) : Prop := ∃ c, r = .call c ∧ c.Pins relpath

/-- Records go on being read. -/
theorem Kept.legible_answer (hs : s.Kept) {r : Request} (h : s.answer algo who r = some t)
    (hsmall : r.Small) (hbefore : ∀ v, s.Views v → v.Legible s.store) :
    ∀ v, t.Views v → v.Legible t.store := by
  refine hs.views_answer h ?_ ?_ ?_ hbefore
  · intro v store after hobserved hlegible
    refine ⟨hlegible.pending, ?_⟩
    rw [hobserved]
    exact hlegible.committed
  · intro c tx hcall hopen hlegible
    rcases c.idle_or_writes algo s.store tx with hidle | ⟨hw, p, hwrites⟩
    · rw [hidle]
      exact hlegible
    · rw [hwrites.apply_eq hw]
      exact hlegible.patch fun r hr => hwrites.counted (hsmall c hcall) hlegible hr
  · intro tx n writable _ hview hindex hlegible
    exact hlegible.fresh hview hindex n writable

/-- Where no digest is declared, none comes to be but by a call that pins
the relpath. -/
theorem Kept.undeclared_answer (hs : s.Kept) {raw : String} {link : Link}
    (hlink : Link.parse raw = .ok link) (hhash : link.hash = none) {r : Request}
    (h : s.answer algo who r = some t) (hpins : ¬r.Pins link.relpath)
    (hbefore : ∀ v, s.Views v → Entry.Undeclared v s.store link.relpath) :
    ∀ v, t.Views v → Entry.Undeclared v t.store link.relpath := by
  refine hs.views_answer (P := fun v store => Entry.Undeclared v store link.relpath)
    h ?_ ?_ ?_ hbefore
  · intro v store after hobserved hundeclared spec hdeclares
    refine hundeclared spec ?_
    unfold Entry.Declares Entry.load Transaction.get at hdeclares ⊢
    rwa [hobserved] at hdeclares
  · intro c tx hcall hopen hundeclared
    exact c.undeclared hlink hhash (fun hc => hpins ⟨c, hcall, hc⟩) hundeclared
  · intro tx n writable hopen hview hindex hundeclared spec hdeclares
    exact hundeclared spec (declares_landed (hs.recorded who tx hopen) hview hdeclares hindex)

/-- Nothing is declared at first, and there are no records to read. -/
theorem views_empty {root cwd : String} {v : Transaction} (h : (empty root cwd).Views v) :
    v.Legible (empty root cwd).store
      ∧ ∀ relpath, Entry.Undeclared v (empty root cwd).store relpath := by
  rcases h.cases (sane_empty root cwd) with ⟨i, hi⟩ | ⟨n, writable, -, rfl⟩
  · cases hi
  · refine ⟨⟨fun key value hkey => by simp [fresh] at hkey, fun key text htext => ?_⟩,
      fun relpath spec hdeclares => ?_⟩
    · unfold observed at htext
      simp [fresh, empty] at htext
    · obtain ⟨algo, e, hload, -⟩ := hdeclares
      unfold Entry.load Transaction.get observed at hload
      simp [fresh, empty] at hload

/-- After any run on a store that is empty at first, a link with an egg name
and without a digest can be mapped, and however often content is fetched
through the handle, what is delivered is taken in just if it has every
digest that was declared at the relpath before; and none was if no call
pinned it. -/
theorem refresh_iff {root cwd : String} {requests : List (Nat × Request)} {raw name : String}
    {link : Link}
    (hsmall : ∀ request ∈ requests, request.2.Small)
    (hopen : ((empty root cwd).served algo requests).opened who = some tx)
    (hwrites : tx.writable = true) (hlink : Link.parse raw = .ok link)
    (hegg : link.egg = some name) (hhash : link.hash = none)
    (hvalid : Relpath.isValid link.relpath = true) :
    (∃ e t, Entry.ofLink tx ((empty root cwd).served algo requests).store algo link = .ok (e, t)
      ∧ e.relpath = link.relpath
      ∧ e.Refreshes t ((empty root cwd).served algo requests).store fun bytes =>
          ∀ spec,
            Entry.Declares tx ((empty root cwd).served algo requests).store link.relpath spec →
            spec.accepts bytes = true)
    ∧ ((∀ request ∈ requests, ¬request.2.Pins link.relpath) →
        ∀ spec,
          ¬Entry.Declares tx ((empty root cwd).served algo requests).store link.relpath spec) := by
  constructor
  · obtain ⟨hkept, hlegible⟩ := served_induct
      (P := fun s => s.Kept ∧ ∀ v, s.Views v → v.Legible s.store)
      (fun s who r t hs hanswer hmem =>
        ⟨hs.1.answer hanswer, hs.1.legible_answer hanswer (hsmall _ hmem) hs.2⟩)
      ⟨kept_empty root cwd, fun v hv => (views_empty hv).1⟩
    obtain ⟨e, t, hmap⟩ := Entry.ofLink_ok (hlegible tx (.inl ⟨who, hopen⟩)) hwrites algo link
    obtain ⟨hrelpath, hwritable⟩ := Entry.of_ofLink hmap
    obtain ⟨found, hload, hrecord, -⟩ := Entry.ofLink_spec hmap
    refine ⟨e, t, hmap, hrelpath, ?_⟩
    have hdeclares : ∀ spec, e.hash? = some spec
        ↔ Entry.Declares tx ((empty root cwd).served algo requests).store link.relpath spec := by
      intro spec
      have hdescribed := Entry.hash?_describedBy hlink ((found.map Entry.record).getD {}) algo
      rw [hhash, Option.none_or] at hdescribed
      rw [Entry.declares_iff_of_load hload, Entry.hash?_congr (a := e)
        (b := ⟨link.relpath, Entry.describedBy link ((found.map Entry.record).getD {}), algo⟩)
        (congrArg FileRecord.hash hrecord), hdescribed]
      cases found with
      | none => simp [Entry.hash?]
      | some old => simp [Entry.hash?]
    have hrefreshes := Entry.refreshes_of_egg (e := e) (t := t) (hwritable.trans hwrites)
      (hrelpath ▸ hvalid) (by rw [hrecord]; simp [Entry.describedBy, hegg])
      (by
        rw [hrecord]
        unfold Entry.describedBy
        cases ((found.map Entry.record).getD {}).url <;> rfl)
      ((empty root cwd).served algo requests).store
    simpa only [hdeclares] using hrefreshes
  · intro hpins
    obtain ⟨hkept, hundeclared⟩ := served_induct
      (P := fun s => s.Kept ∧ ∀ v, s.Views v → Entry.Undeclared v s.store link.relpath)
      (fun s who r t hs hanswer hmem =>
        ⟨hs.1.answer hanswer, hs.1.undeclared_answer hlink hhash hanswer (hpins _ hmem) hs.2⟩)
      ⟨kept_empty root cwd, fun v hv => (views_empty hv).2 link.relpath⟩
    exact hundeclared tx (.inl ⟨who, hopen⟩)

set_option maxRecDepth 20000 in
/-- What was fetched for the link without an egg name is all that is taken
in for the link with one. -/
theorem refresh_refused_after_plain_fetch : ∃ requests tx link e t,
    ((empty "depot" "/").served .md5 requests).opened 0 = some tx
    ∧ Link.parse "https://pypi.example/x#egg=x" = .ok link
    ∧ Entry.ofLink tx ((empty "depot" "/").served .md5 requests).store .md5 link = .ok (e, t)
    ∧ (e.fetch t (fun _ => .ok ⟨200, {}, [.data [80]]⟩) "now" none).result ≠ .ok ()
    ∧ (e.fetch t (fun _ => .ok ⟨200, {}, [.data [79]]⟩) "now" none).result = .ok () := by
  have hsmall : ∀ request ∈ [(0, Request.manage (.begin true)),
      (0, .call (.use (.map "https://pypi.example/x"))),
      (0, .call (.use (.fetch ⟨"+e/pypi.example/x", { url := some "https://pypi.example/x" }, .md5⟩
        (fun _ => .ok ⟨200, {}, [.data [79]]⟩) "now" none)))], request.2.Small := by
    refine List.forall_mem_cons.2 ⟨?_, List.forall_mem_cons.2 ⟨?_, List.forall_mem_cons.2
      ⟨?_, List.forall_mem_nil _⟩⟩⟩
    · rintro c ⟨⟩
    · rintro c ⟨⟩
      exact True.intro
    · rintro c ⟨⟩
      refine ⟨nofun, ?_⟩
      rintro url response ⟨⟩
      show 1 ≤ Json.Reader.maxGathered
      unfold Json.Reader.maxGathered
      omega
  have hlink : Link.parse "https://pypi.example/x#egg=x" = .ok _ := rfl
  obtain ⟨⟨e, t, hmap, -, hrefreshes⟩, -⟩ :=
    @refresh_iff 0 _ .md5 "depot" "/" _ _ _ _ hsmall rfl rfl hlink rfl rfl rfl
  obtain ⟨source, hsource⟩ := hrefreshes.asks [] none
  have hsends : ∀ byte, Entry.Sends ⟨200, {}, [.data [byte]]⟩ [byte] :=
    fun byte => ⟨rfl, rfl, nofun⟩
  have htakes := fun byte => hrefreshes.takes [] (fun _ => .ok ⟨200, {}, [.data [byte]]⟩) "now"
    none source _ [byte] hsource rfl (hsends byte)
  refine ⟨_, _, _, e, t, rfl, hlink, hmap, fun hok => ?_, ?_⟩
  · obtain ⟨-, hiff, -⟩ := htakes 80
    have haccepts := hiff.1 hok ⟨.md5, Digest.Algo.md5.hexDigest [79]⟩ ⟨.md5,
      ⟨"+e/pypi.example/x",
        { hash := some ("md5=" ++ Digest.Algo.md5.hexDigest [79]),
          url := some "https://pypi.example/x", size := some 1, lastModified := some "now" },
        .md5⟩, rfl, by decide +kernel⟩
    exact absurd haccepts (by decide +kernel)
  · obtain ⟨-, hiff, -⟩ := htakes 79
    refine hiff.2 fun spec hdeclares => ?_
    obtain ⟨algo, old, hload, hspec⟩ := hdeclares
    cases hload
    exact Entry.accepts_of_hash (a := .md5) rfl hspec

end Site

end Depot
