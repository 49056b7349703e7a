/-
What arrives of a body. A body comes in pieces of any size, with
interruptions between them, and every piece is read in portions of the
size of a buffer. None of that matters: reading yields the octets that
come before the body stops (`readBody_spec`), and the digest in progress
is theirs (`InStep`). So a response is judged by these octets and by how
its body stops (`check_eq`); the theory of fetches rests on that.
-/
import Depot.Store.Fetch

namespace Depot

/-- Reading goes on behind such an event. -/
def BodyEvent.goesOn : BodyEvent → Bool
  | .data bytes => !bytes.isEmpty
  | .interrupted => true
  | .failed _ => false

/-- The octets that come with an event. -/
def BodyEvent.bytes : BodyEvent → Bytes
  | .data bytes => bytes
  | _ => []

/-- The cause of a failure, if the event is one. -/
def BodyEvent.cause? : BodyEvent → Option String
  | .failed cause => some cause
  | _ => none

-- ===================================================== reading

namespace Download

/-- The octets that come before a body stops. -/
def arrived (body : List BodyEvent) : Bytes :=
  (body.takeWhile BodyEvent.goesOn).flatMap BodyEvent.bytes

/-- The failure that stops a body. One that comes to its end has none. -/
def failure? (body : List BodyEvent) : Option String :=
  (body.find? fun event => !event.goesOn).bind BodyEvent.cause?

variable {event : BodyEvent} {rest : List BodyEvent}

theorem arrived_cons_of_goesOn (h : event.goesOn = true) :
    arrived (event :: rest) = event.bytes ++ arrived rest := by
  unfold arrived
  rw [List.takeWhile_cons_of_pos h, List.flatMap_cons]

theorem arrived_cons_of_stop (h : event.goesOn = false) : arrived (event :: rest) = [] := by
  unfold arrived
  rw [List.takeWhile_cons_of_neg (by simp [h])]
  rfl

theorem failure?_cons_of_goesOn (h : event.goesOn = true) :
    failure? (event :: rest) = failure? rest := by
  unfold failure?
  rw [List.find?_cons_of_neg (by simp [h])]

theorem failure?_cons_of_stop (h : event.goesOn = false) :
    failure? (event :: rest) = event.cause? := by
  unfold failure?
  rw [List.find?_cons_of_pos (by simp [h])]
  rfl

/-- The portions of a piece are the piece. -/
theorem portions_flatten {fuel : Nat} {bytes : Bytes} (hfuel : 0 < fuel)
    (h : bytes.length ≤ fuel) : (portions fuel bytes).flatten = bytes := by
  induction fuel generalizing bytes with
  | zero => cases hfuel
  | succ fuel ih =>
      unfold portions
      split
      · simp
      · next hlong =>
        have hlen : (bytes.drop bufferSize).length = bytes.length - bufferSize :=
          List.length_drop ..
        have hsize : bufferSize = 65536 := rfl
        rw [List.flatten_cons, ih (by omega) (by omega), List.take_append_drop]

theorem foldl_add (ps : List Bytes) (p : Progress) :
    (ps.foldl Progress.add p).content = p.content ++ ps.flatten
      ∧ (ps.foldl Progress.add p).received = p.received + ps.flatten.length := by
  induction ps generalizing p with
  | nil => simp
  | cons portion rest ih =>
      obtain ⟨hcontent, hreceived⟩ := ih (p.add portion)
      rw [List.foldl_cons, hcontent, hreceived]
      unfold Progress.add Progress.content
      simp [Nat.add_assoc]

/-- Reading a body adds what arrives of it, and fails as it fails. -/
theorem readBody_spec (body : List BodyEvent) (p : Progress) :
    (readBody p body).2 = failure? body
      ∧ (readBody p body).1.content = p.content ++ arrived body
      ∧ (readBody p body).1.received = p.received + (arrived body).length := by
  induction body generalizing p with
  | nil => simp [readBody, failure?, arrived]
  | cons event rest ih =>
      cases event with
      | data piece =>
          cases piece with
          | nil =>
              rw [failure?_cons_of_stop rfl, arrived_cons_of_stop rfl, List.append_nil]
              exact ⟨rfl, rfl, rfl⟩
          | cons b bs =>
              obtain ⟨hcontent, hreceived⟩ := foldl_add (portions (bs.length + 1) (b :: bs)) p
              rw [portions_flatten (by omega) (by simp)] at hcontent hreceived
              obtain ⟨hfailure, hcontent', hreceived'⟩ :=
                ih ((portions (bs.length + 1) (b :: bs)).foldl Progress.add p)
              rw [failure?_cons_of_goesOn rfl, arrived_cons_of_goesOn rfl]
              unfold readBody
              refine ⟨hfailure, ?_, ?_⟩
              · rw [hcontent', hcontent, List.append_assoc]
                rfl
              · rw [hreceived', hreceived, List.length_append, Nat.add_assoc]
                rfl
      | interrupted =>
          rw [failure?_cons_of_goesOn rfl, arrived_cons_of_goesOn rfl]
          exact ih p
      | failed cause =>
          rw [failure?_cons_of_stop rfl, arrived_cons_of_stop rfl, List.append_nil]
          exact ⟨rfl, rfl, rfl⟩

end Download

-- ===================================================== digests in progress

namespace Entry

/-- The digest in progress is that of what was read. -/
def InStep (a : Digest.Algo) (p : Download.Progress) : Prop :=
  p.hasher = p.portions.reverse.foldl (fun h portion => h.update portion) a.hasher

theorem InStep.foldl {a : Digest.Algo} {p : Download.Progress} (h : InStep a p)
    (portions : List Bytes) : InStep a (portions.foldl Download.Progress.add p) := by
  induction portions generalizing p with
  | nil => exact h
  | cons portion rest ih =>
      apply ih
      unfold InStep Download.Progress.add
      dsimp only
      rw [List.reverse_cons, List.foldl_append, ← h]
      rfl

theorem InStep.readBody {a : Digest.Algo} {p : Download.Progress} (h : InStep a p)
    (body : List BodyEvent) : InStep a (Download.readBody p body).1 := by
  induction body generalizing p with
  | nil => exact h
  | cons event rest ih =>
      cases event with
      | data bytes =>
          cases bytes with
          | nil => exact h
          | cons b bs => exact ih (h.foldl _)
      | interrupted => exact ih h
      | failed cause => exact h

theorem InStep.finishHex {a : Digest.Algo} {p : Download.Progress} (h : InStep a p) :
    p.hasher.finishHex = a.hexDigest p.content := by
  rw [h, Digest.Algo.hexDigest_eq_feed]
  rfl

-- ===================================================== verdicts

/-- What becomes of a response of which these octets have arrived when its
body stops, by a failure or at its end. -/
def verdict (e : Entry) (url : String) (status : Nat) (headers : ResponseHeaders)
    (bytes : Bytes) (failure : Option String) : Except FetchError Download :=
  if !isSuccess status then .error (.status url status)
  else
    match failure, declaredSize headers with
    | some cause, some n =>
        if bytes.length < n then .error (.sizeMismatch url n bytes.length)
        else .error (.stream url cause)
    | some cause, none => .error (.stream url cause)
    | none, expected =>
        if expected.any (· ≠ bytes.length) then
          .error (.sizeMismatch url (expected.getD 0) bytes.length)
        else
          match e.hash? with
          | some spec =>
              if spec.accepts bytes then .ok ⟨bytes, e.algo.hexDigest bytes, headers⟩
              else .error (.digestMismatch e.relpath spec.algo.name spec.value
                (e.algo.hexDigest bytes))
          | none => .ok ⟨bytes, e.algo.hexDigest bytes, headers⟩

/-- A response is judged by what arrives of its body and by how that
stops. -/
theorem check_eq (e : Entry) (url : String) (response : Response) :
    e.check url response = e.verdict url response.status response.headers
      (Download.arrived response.body) (Download.failure? response.body) := by
  obtain ⟨hfailure, hcontent, hreceived⟩ :=
    Download.readBody_spec response.body { hasher := e.algo.hasher }
  have hdigest := (InStep.readBody (a := e.algo) (p := { hasher := e.algo.hasher }) rfl
    response.body).finishHex
  rw [hcontent] at hdigest
  unfold check verdict
  revert hfailure hcontent hreceived hdigest
  dsimp only
  generalize Download.readBody { hasher := e.algo.hasher } response.body = body
  generalize Download.arrived response.body = bytes
  obtain ⟨progress, failure⟩ := body
  intro hfailure hcontent hreceived hdigest
  dsimp only at hfailure hcontent hreceived hdigest
  subst hfailure
  have hstart : (Download.Progress.mk e.algo.hasher [] 0).content = [] := rfl
  rw [hstart, List.nil_append] at hcontent hdigest
  rw [Nat.zero_add] at hreceived
  dsimp only
  rw [hreceived, hcontent, hdigest]
  refine ite_congr rfl (fun _ => rfl) fun _ => ?_
  cases Download.failure? response.body with
  | some cause => cases declaredSize response.headers <;> rfl
  | none =>
      refine ite_congr rfl (fun _ => rfl) fun _ => ?_
      cases hspec : e.hash? with
      | none => rfl
      | some spec =>
          have halgo : e.algo = spec.algo := by
            unfold algo
            rw [hspec]
            rfl
          have haccepts : (spec.accepts bytes = true) = (e.algo.hexDigest bytes = spec.value) := by
            unfold HashSpec.accepts
            rw [halgo, decide_eq_true_eq]
          exact ite_congr haccepts.symm (fun _ => rfl) fun _ => rfl

/-- What is taken in is what has arrived of a body that came to its end, as
long as was declared and with the digest that was declared, if any were. -/
theorem verdict_ok_iff {e : Entry} {url : String} {status : Nat} {headers : ResponseHeaders}
    {bytes : Bytes} {failure : Option String} {d : Download} :
    e.verdict url status headers bytes failure = .ok d
      ↔ isSuccess status = true ∧ failure = none
        ∧ (∀ n, declaredSize headers = some n → n = bytes.length)
        ∧ (∀ spec, e.hash? = some spec → spec.accepts bytes = true)
        ∧ d = ⟨bytes, e.algo.hexDigest bytes, headers⟩ := by
  have hsize : (declaredSize headers).any (· ≠ bytes.length) = false
      ↔ ∀ n, declaredSize headers = some n → n = bytes.length := by
    cases declaredSize headers <;> simp
  unfold verdict
  rw [← hsize]
  constructor
  · intro h
    split at h
    · cases h
    · next hsuccess =>
      have hsuccess : isSuccess status = true := by simpa using hsuccess
      split at h
      · split at h <;> cases h
      · cases h
      · split at h
        · cases h
        · next hlength =>
          refine ⟨hsuccess, rfl, Bool.not_eq_true _ ▸ hlength, ?_⟩
          cases hspec : e.hash? with
          | none =>
              rw [hspec] at h
              cases h
              exact ⟨nofun, rfl⟩
          | some spec =>
              rw [hspec] at h
              dsimp only at h
              split at h
              · next haccepts =>
                cases h
                exact ⟨fun _ heq => Option.some.inj heq ▸ haccepts, rfl⟩
              · cases h
  · rintro ⟨hsuccess, rfl, hlength, haccepts, rfl⟩
    rw [if_neg (by simp [hsuccess])]
    dsimp only
    rw [if_neg (by rw [hlength]; exact Bool.false_ne_true)]
    cases hspec : e.hash? with
    | none => rfl
    | some spec => exact if_pos (haccepts spec hspec)

/-- What a download comes to depends on the body by what arrives of it, and
by how it stops. What is taken in is what has arrived, with its digest; a
failure that comes before the declared number of octets has arrived means
that the size is wrong, and any other that the body broke off. -/
theorem download_of_arrived {web web' : Web} {url : String} {status : Nat}
    {headers : ResponseHeaders} {body body' : List BodyEvent}
    (hweb : web url = .ok ⟨status, headers, body⟩)
    (hweb' : web' url = .ok ⟨status, headers, body'⟩)
    (harrived : Download.arrived body = Download.arrived body')
    (hfailure : Download.failure? body = Download.failure? body') (e : Entry) :
    let received := Download.arrived body
    e.download web url = e.download web' url
      ∧ (∀ d, e.download web url = .ok d → d = ⟨received, e.algo.hexDigest received, headers⟩)
      ∧ ∀ cause, 200 ≤ status → status ≤ 299 → Download.failure? body = some cause →
          (∀ n, declaredSize headers = some n → received.length < n →
            e.download web url = .error (.sizeMismatch url n received.length))
          ∧ ((∀ n, declaredSize headers = some n → n ≤ received.length) →
            e.download web url = .error (.stream url cause)) := by
  intro received
  have hdownload : ∀ {web : Web} {body : List BodyEvent},
      web url = .ok ⟨status, headers, body⟩ → e.download web url
        = e.verdict url status headers (Download.arrived body) (Download.failure? body) := by
    intro web body hweb
    unfold download
    rw [hweb]
    exact check_eq ..
  refine ⟨?_, fun d hd => ?_, fun cause hlow hhigh hcause => ?_⟩
  · rw [hdownload hweb, hdownload hweb', harrived, hfailure]
  · rw [hdownload hweb] at hd
    exact (verdict_ok_iff.1 hd).2.2.2.2
  · have hsuccess : isSuccess status = true := by
      unfold isSuccess
      rw [Bool.and_eq_true, decide_eq_true_eq, decide_eq_true_eq]
      omega
    rw [hdownload hweb, hcause]
    unfold verdict
    rw [if_neg (by simp [hsuccess])]
    refine ⟨fun n hn hshort => ?_, fun hall => ?_⟩
    · rw [hn]
      exact if_pos hshort
    · cases hdeclared : declaredSize headers with
      | none => rfl
      | some n => exact if_neg (Nat.not_lt.2 (hall n hdeclared))

/-- A piece that is longer than the buffer, and the same octets in two
pieces with an interruption between them, break off at the same point. -/
theorem download_of_pieces :
    let e : Entry := ⟨"a/b", {}, .md5⟩
    let headers : ResponseHeaders := { contentLength := some "100000" }
    let web : Web := fun _ => .ok ⟨200, headers, [.data (List.replicate 70000 1), .failed "reset"]⟩
    let web' : Web := fun _ => .ok ⟨200, headers, [.data (List.replicate 30000 1), .interrupted,
      .data (List.replicate 40000 1), .failed "reset", .data [2]]⟩
    e.download web "http://h/b" = .error (.sizeMismatch "http://h/b" 100000 70000)
      ∧ e.download web' "http://h/b" = .error (.sizeMismatch "http://h/b" 100000 70000) := by
  intro e headers web web'
  have hgoesOn : ∀ n, BodyEvent.goesOn (.data (List.replicate (n + 1) 1)) = true := fun _ => rfl
  have hone : Download.arrived [.data (List.replicate 70000 1), .failed "reset"]
      = List.replicate 70000 1 := by
    rw [Download.arrived_cons_of_goesOn (hgoesOn 69999), Download.arrived_cons_of_stop rfl,
      List.append_nil]
    rfl
  have htwo : Download.arrived [.data (List.replicate 30000 1), .interrupted,
      .data (List.replicate 40000 1), .failed "reset", .data [2]] = List.replicate 70000 1 := by
    rw [Download.arrived_cons_of_goesOn (hgoesOn 29999), Download.arrived_cons_of_goesOn rfl,
      Download.arrived_cons_of_goesOn (hgoesOn 39999), Download.arrived_cons_of_stop rfl,
      List.append_nil]
    exact List.replicate_append_replicate
  have hfailure : Download.failure? [.data (List.replicate 70000 1), .failed "reset"]
      = some "reset" := Download.failure?_cons_of_goesOn (hgoesOn 69999)
  have hfailure' : Download.failure? [.data (List.replicate 30000 1), .interrupted,
      .data (List.replicate 40000 1), .failed "reset", .data [2]] = some "reset" := by
    rw [Download.failure?_cons_of_goesOn (hgoesOn 29999), Download.failure?_cons_of_goesOn rfl,
      Download.failure?_cons_of_goesOn (hgoesOn 39999)]
    rfl
  have hweb : web "http://h/b" = .ok ⟨200, headers,
      [.data (List.replicate 70000 1), .failed "reset"]⟩ := rfl
  have hweb' : web' "http://h/b" = .ok ⟨200, headers, [.data (List.replicate 30000 1),
      .interrupted, .data (List.replicate 40000 1), .failed "reset", .data [2]]⟩ := rfl
  obtain ⟨hsame, -, hfails⟩ := download_of_arrived hweb hweb' (hone.trans htwo.symm)
    (hfailure.trans hfailure'.symm) e
  obtain ⟨hshort, -⟩ := hfails "reset" (by decide) (by decide) hfailure
  have hlength : (Download.arrived [.data (List.replicate 70000 1), .failed "reset"]).length
      = 70000 := by
    rw [hone]
    exact List.length_replicate
  have hresult := hshort 100000 rfl (by rw [hlength]; decide)
  rw [hlength] at hresult
  exact ⟨hresult, hsame ▸ hresult⟩

end Entry

end Depot
