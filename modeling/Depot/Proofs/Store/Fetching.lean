/-
When a fetch succeeds, and what it leaves. A fetch goes wrong for five
reasons only: nothing can be kept at the relpath, no response of success
comes, the body breaks off, it is not as long as the response says, or it
does not have the digest that the entry declares (`check_ok_iff`). Where
none of them holds, the content and the record of what was received are
kept together (`taken_in_iff`).
-/
import Depot.Proofs.Store.Refresh

namespace Depot

open Transaction

/-- What stands before the first occurrence of a character, which is all if
there is none. -/
theorem Text.cut?_getD (c : Char) (s : List Char) :
    ((cut? c s).map (·.1)).getD s = s.takeWhile (· ≠ c) := by
  induction s with
  | nil => rfl
  | cons x rest ih =>
      unfold cut?
      by_cases hx : x = c
      · rw [if_pos hx, List.takeWhile_cons_of_neg (by simp [hx])]
        rfl
      · rw [if_neg hx, List.takeWhile_cons_of_pos (by simp [hx]), ← ih]
        cases cut? c rest <;> rfl

/-- The record beside content that was fetched. What the response does not
say stays as it was, and a digest is recorded only where none is expected
and the content is not there to be replaced. -/
def FileRecord.fetched (r : FileRecord) (algo : Digest.Algo) (source now : String)
    (headers : ResponseHeaders) (content : Bytes) : FileRecord where
  hash :=
    if r.hash.isSome ∨ r.egg.isSome then r.hash
    else some (HashSpec.ofContent algo content).toText
  url := some source
  egg := r.egg
  lastModified := some ((headers.lastModified <|> r.lastModified).getD now)
  size := some content.length
  contentType := headers.contentType <|> r.contentType
  contentLength := headers.contentLength <|> r.contentLength

namespace Entry

variable {e : Entry} {tx : Transaction}

/-- The part of a URL that is sent ends before its first `#`. -/
theorem withoutFragment_eq (url : String) :
    withoutFragment url = String.ofList (url.toList.takeWhile (· ≠ '#')) := by
  unfold withoutFragment Text.cutString?
  rw [← Text.cut?_getD]
  cases Text.cut? '#' url.toList with
  | none => exact String.ofList_toList.symm
  | some parts => rfl

-- ===================================================== what passes the checks

/-- What passes the checks was delivered as the response says, has the
digest that the entry declares, if it declares one, and comes with its
own. -/
theorem check_eq_ok_iff {url : String} {response : Response} {d : Download} :
    e.check url response = .ok d
      ↔ ∃ bytes, Sends response bytes
        ∧ (∀ spec, e.hash? = some spec → spec.accepts bytes = true)
        ∧ d = ⟨bytes, e.algo.hexDigest bytes, response.headers⟩ := by
  rw [check_eq, verdict_ok_iff]
  constructor
  · rintro ⟨hsuccess, hfailure, hsize, haccepts, rfl⟩
    exact ⟨_, ⟨hsuccess, Download.delivered?_eq_some_iff.2 ⟨hfailure, rfl⟩, hsize⟩, haccepts, rfl⟩
  · rintro ⟨bytes, hsends, haccepts, rfl⟩
    obtain ⟨hfailure, rfl⟩ := Download.delivered?_eq_some_iff.1 hsends.delivered
    exact ⟨hsends.success, hfailure, hsends.size, haccepts, rfl⟩

/-- So a response passes the checks just if it is delivered as it says, with
the digest that the entry declares, if it declares one. -/
theorem check_ok_iff {url : String} {response : Response} :
    (∃ d, e.check url response = .ok d)
      ↔ ∃ bytes, Sends response bytes
        ∧ ∀ spec, e.hash? = some spec → spec.accepts bytes = true := by
  constructor
  · rintro ⟨d, hd⟩
    obtain ⟨bytes, hsends, haccepts, -⟩ := check_eq_ok_iff.1 hd
    exact ⟨bytes, hsends, haccepts⟩
  · rintro ⟨bytes, hsends, haccepts⟩
    exact ⟨_, check_eq_ok_iff.2 ⟨bytes, hsends, haccepts, rfl⟩⟩

/-- What passes the checks is what was delivered, with its digest. -/
theorem check_eq_of_sends {url : String} {response : Response} {bytes : Bytes} {d : Download}
    (hsends : Sends response bytes) (h : e.check url response = .ok d) :
    d = ⟨bytes, e.algo.hexDigest bytes, response.headers⟩ := by
  obtain ⟨bytes', hsends', -, rfl⟩ := check_eq_ok_iff.1 h
  obtain rfl := Option.some.inj (hsends.delivered.symm.trans hsends'.delivered)
  rfl

-- ===================================================== fetches

/-- The record that a fetch writes. -/
theorem record_withDownload (e : Entry) (source now : String) (headers : ResponseHeaders)
    (bytes : Bytes) :
    (e.withDownload source ⟨bytes, e.algo.hexDigest bytes, headers⟩).record.holding bytes
        ((headers.lastModified <|> e.record.lastModified).getD now)
      = e.record.fetched e.defaultAlgo source now headers bytes := by
  unfold withDownload FileRecord.holding FileRecord.fetched
  congr 1
  cases hhash : e.record.hash with
  | some text => simp
  | none =>
      cases hegg : e.record.egg with
      | some name => simp
      | none =>
          have halgo : e.algo = e.defaultAlgo := by
            unfold algo
            rw [hash?_of_none hhash]
            rfl
          rw [halgo]
          rfl

/-- A fetch asks for the part of the URL that is sent. -/
theorem target_given (hw : tx.writable = true) (url : String) :
    e.target tx (some url) = .ok (withoutFragment url) := if_pos hw

/-- A fetch takes in what passes the checks, where something can be
kept. -/
theorem fetch_eq (hw : tx.writable = true) (hvalid : Relpath.isValid e.relpath = true)
    {web : Web} {url : Option String} {source : String} {response : Response} {bytes : Bytes}
    (hsource : e.target tx url = .ok source) (hweb : web source = .ok response)
    (hsends : Sends response bytes)
    (haccepts : ∀ spec, e.hash? = some spec → spec.accepts bytes = true) (now : String) :
    let record := e.record.fetched e.defaultAlgo source now response.headers bytes
    e.fetch tx web now url
      = ⟨{ e with record }, Patch.apply ⟨e.relpath, some record, some (some bytes)⟩ tx,
        .ok ()⟩ := by
  obtain ⟨d, hd⟩ := check_ok_iff.2 ⟨bytes, hsends, haccepts⟩
  have hdownload : e.download web source = .ok d := by
    unfold download
    rw [hweb]
    exact hd
  obtain rfl := check_eq_of_sends hsends hd
  rw [fetch_of_ok hsource hdownload, setContent_eq (e := e.withDownload source _) hw hvalid,
    record_withDownload]
  rfl

/-- Where nothing can be kept, no fetch succeeds. -/
theorem isValid_of_fetch (hw : tx.writable = true) {web : Web} {url : Option String} {now : String}
    (h : (e.fetch tx web now url).result = .ok ()) : Relpath.isValid e.relpath = true := by
  by_contra hinvalid
  have hrefuses := refuses_of_invalid (e := e) hw (Bool.eq_false_iff.2 hinvalid)
  cases hsource : e.target tx url with
  | error err =>
      unfold Entry.fetch at h
      rw [hsource] at h
      cases h
  | ok source =>
      cases hdownload : e.download web source with
      | error err => exact fetch_fails hsource hdownload now h
      | ok d =>
          rw [hrefuses.fetch web now url source d hsource hdownload] at h
          cases h

/-- What a fetch that succeeds was answered with passes the checks. -/
theorem check_of_fetch {web : Web} {url : Option String} {source now : String}
    (hsource : e.target tx url = .ok source) (h : (e.fetch tx web now url).result = .ok ()) :
    ∃ response, web source = .ok response ∧ ∃ d, e.check source response = .ok d := by
  cases hdownload : e.download web source with
  | error err => exact absurd h (fetch_fails hsource hdownload now)
  | ok d =>
      unfold download at hdownload
      split at hdownload
      · cases hdownload
      · next response hweb => exact ⟨response, hweb, d, hdownload⟩

/-- A fetch from a URL succeeds just if something can be kept at the
relpath, and what the part of the URL before its first `#` is answered with
is a success, is delivered to its end, is as long as it says if it says so,
and has the digest that the entry declares if it declares one. What was
received is then the content at the relpath, with its record beside it. -/
theorem taken_in_iff (hw : tx.writable = true) (store : Store) (web : Web) (now url : String) :
    let source := String.ofList (url.toList.takeWhile (· ≠ '#'))
    let step := e.fetch tx web now (some url)
    (step.result = .ok () ↔
      ∃ response bytes, Relpath.isValid e.relpath = true ∧ web source = .ok response
        ∧ (200 ≤ response.status ∧ response.status ≤ 299)
        ∧ Download.delivered? response.body = some bytes
        ∧ (∀ n, declaredSize response.headers = some n → n = bytes.length)
        ∧ ∀ spec, e.hash? = some spec → spec.accepts bytes = true)
    ∧ ∀ response bytes, step.result = .ok () → web source = .ok response →
        Download.delivered? response.body = some bytes →
        let record := e.record.fetched e.defaultAlgo source now response.headers bytes
        step.tx.getBlob store e.relpath = .ok (some bytes)
          ∧ step.entry = { e with record }
          ∧ ∀ algo, load step.tx store algo e.relpath = .ok (some ⟨e.relpath, record, algo⟩) := by
  intro source step
  have hsource : e.target tx (some url) = .ok source := by
    rw [target_given hw, withoutFragment_eq]
  have hstatus : ∀ status, isSuccess status = true ↔ 200 ≤ status ∧ status ≤ 299 := by
    intro status
    unfold isSuccess
    rw [Bool.and_eq_true, decide_eq_true_eq, decide_eq_true_eq]
    omega
  have hreceived : step.result = .ok () → ∃ response bytes, web source = .ok response
      ∧ Sends response bytes ∧ ∀ spec, e.hash? = some spec → spec.accepts bytes = true := by
    intro hok
    obtain ⟨response, hweb, hcheck⟩ := check_of_fetch hsource hok
    obtain ⟨bytes, hsends, haccepts⟩ := check_ok_iff.1 hcheck
    exact ⟨response, bytes, hweb, hsends, haccepts⟩
  refine ⟨⟨fun hok => ?_, fun h => ?_⟩, fun response bytes hok hweb hbytes => ?_⟩
  · obtain ⟨response, bytes, hweb, hsends, haccepts⟩ := hreceived hok
    exact ⟨response, bytes, isValid_of_fetch hw hok, hweb, (hstatus _).1 hsends.success,
      hsends.delivered, hsends.size, haccepts⟩
  · obtain ⟨response, bytes, hvalid, hweb, hsuccess, hbytes, hsize, haccepts⟩ := h
    have hsends : Sends response bytes := ⟨(hstatus _).2 hsuccess, hbytes, hsize⟩
    exact congrArg Step.result (fetch_eq hw hvalid hsource hweb hsends haccepts now)
  · obtain ⟨response', bytes', hweb', hsends, haccepts⟩ := hreceived hok
    obtain rfl := Except.ok.inj (hweb.symm.trans hweb')
    obtain rfl := Option.some.inj (hbytes.symm.trans hsends.delivered)
    have hfetch := fetch_eq hw (isValid_of_fetch hw hok) hsource hweb hsends haccepts now
    dsimp only at hfetch ⊢
    rw [show step = _ from hfetch]
    exact ⟨Patch.getBlob_apply rfl tx store, rfl, fun algo => Patch.load_apply _ tx store algo⟩

/-- A recorded digest that is none is not compared, and is kept. -/
theorem taken_in_beside_no_digest :
    ∃ e tx web, e = Entry.mk "a/b" { hash := some "md5=xyz", lastModified := some "then" } .md5
      ∧ tx = { writable := true, serial := 0, view := some {} }
      ∧ web "http://h/b" = .ok ⟨299, { contentLength := some " +3\n" },
        [.data [1], .interrupted, .data [2, 3], .data [], .data [4]]⟩
      ∧ tx.writable = true
      ∧ (e.fetch tx web "now" (some "http://h/b#c#d")).result = .ok ()
      ∧ (e.fetch tx web "now" (some "http://h/b#c#d")).entry.record
        = { hash := some "md5=xyz", url := some "http://h/b", lastModified := some "then",
            size := some 3, contentLength := some " +3\n" } := by
  have hwritable : ({ writable := true, serial := 0, view := some {} } : Transaction).writable
      = true := rfl
  obtain ⟨hiff, hleaves⟩ := taken_in_iff (e := ⟨"a/b",
      { hash := some "md5=xyz", lastModified := some "then" }, .md5⟩) hwritable { root := "depot" }
    (fun _ => .ok ⟨299, { contentLength := some " +3\n" },
      [.data [1], .interrupted, .data [2, 3], .data [], .data [4]]⟩) "now" "http://h/b#c#d"
  have hok := hiff.2 ⟨_, [1, 2, 3], by decide, rfl, by decide, rfl, fun n hn => by cases hn; rfl,
    fun spec hspec => by cases hspec⟩
  obtain ⟨-, hentry, -⟩ := hleaves _ [1, 2, 3] hok rfl rfl
  exact ⟨_, _, _, rfl, rfl, rfl, rfl, hok, congrArg Entry.record hentry⟩

end Entry

end Depot
