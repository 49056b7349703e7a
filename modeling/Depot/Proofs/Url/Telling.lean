/-
What the text of a URL tells. Each part that was read of it lacks the signs
that end it, so the first of these tells where it ends (`append_cons_inj`,
`signed_inj`). So the text tells the credentials and the place of an authority
(`Authority.Clear.inj`), whether there is an authority (`Clear.front_inj`),
and all of the parts, except for the fragment, which it leaves out
(`Clear.inj`).
-/
import Depot.Proofs.Url.Clear
import Depot.Proofs.Text.Split

namespace Depot.Url

open Text

-- ===================================================== parts

/-- The first of a sign tells what stands before it and after it. -/
theorem append_cons_inj {c : Char} {a b a' b' : List Char} (ha : c ∉ a) (ha' : c ∉ a')
    (h : a ++ c :: b = a' ++ c :: b') : a = a' ∧ b = b' := by
  have hcut : cut? c (a ++ c :: b) = some (a, b) := cut?_eq_some_iff.2 ⟨rfl, ha⟩
  have hcut' : cut? c (a' ++ c :: b') = some (a', b') := cut?_eq_some_iff.2 ⟨rfl, ha'⟩
  rw [h, hcut'] at hcut
  cases hcut
  exact ⟨rfl, rfl⟩

/-- A part that need not be there, with the sign in front of it. -/
def signed (c : Char) : Option String → List Char
  | some s => c :: s.toList
  | none => []

theorem signed_ne {c d : Char} (hne : d ≠ c) (part : Option String) (rest : List Char) :
    signed c part ≠ d :: rest := by
  cases part with
  | none => exact (List.cons_ne_nil _ _).symm
  | some s => exact fun heq => hne (List.cons.inj heq).1.symm

/-- The first of a sign tells whether a part follows it, and which. -/
theorem signed_inj {c : Char} {a b : List Char} {x y : Option String} (ha : c ∉ a) (hb : c ∉ b)
    (h : a ++ signed c x = b ++ signed c y) : a = b ∧ x = y := by
  cases x with
  | none =>
      rw [show signed c none = [] from rfl, List.append_nil] at h
      cases y with
      | none => exact ⟨by simpa [signed] using h, rfl⟩
      | some t => exact absurd (by simp [h, signed]) ha
  | some s =>
      cases y with
      | none =>
          rw [show signed c none = [] from rfl, List.append_nil] at h
          exact absurd (by simp [← h, signed]) hb
      | some t =>
          obtain ⟨hfirst, hrest⟩ := append_cons_inj ha hb h
          exact ⟨hfirst, congrArg some (String.toList_inj.1 hrest)⟩

-- ===================================================== authorities

namespace Authority

variable {a b : Authority}

/-- The user name and the password, with a colon between. -/
def credentials (a : Authority) : String :=
  if a.password = "" then a.username else a.username ++ ":" ++ a.password

theorem credentials_eq_empty : a.credentials = "" ↔ a.username = "" ∧ a.password = "" := by
  unfold credentials
  split
  · next hempty => simp [hempty]
  · next hne =>
    refine iff_of_false (fun heq => ?_) fun h => hne h.2
    have hlist := congrArg String.toList heq
    simp at hlist

theorem userinfo_eq (a : Authority) :
    a.userinfo = if a.credentials = "" then "" else a.credentials ++ "@" := by
  simp only [credentials_eq_empty]
  unfold userinfo credentials
  split
  · rfl
  · split
    · rfl
    · rfl

theorem Clear.lacks_credentials (h : a.Clear) : Lacks ['/', '@'] a.credentials := by
  have hname : Lacks ['/', '@'] a.username := h.username.mono (by simp)
  unfold credentials
  split
  · exact hname
  · rw [lacks_append, lacks_append]
    exact ⟨⟨hname, by decide⟩, h.password.mono (by simp)⟩

/-- The password, unless it is empty. -/
def password? (a : Authority) : Option String := if a.password = "" then none else some a.password

theorem getD_password? (a : Authority) : a.password?.getD "" = a.password := by
  unfold password?
  split
  · next hempty => exact hempty.symm
  · rfl

theorem toList_credentials (a : Authority) :
    a.credentials.toList = a.username.toList ++ signed ':' a.password? := by
  unfold credentials password?
  split
  · exact (List.append_nil _).symm
  · simp [signed]

/-- The colon between them is the first. -/
theorem Clear.credentials_inj (ha : a.Clear) (hb : b.Clear) (h : a.credentials = b.credentials) :
    a.username = b.username ∧ a.password = b.password := by
  have hlist := congrArg String.toList h
  rw [toList_credentials, toList_credentials] at hlist
  obtain ⟨hname, hpassword⟩ :=
    signed_inj (ha.username.not_mem (by decide)) (hb.username.not_mem (by decide)) hlist
  refine ⟨String.toList_inj.1 hname, ?_⟩
  rw [← getD_password? a, ← getD_password? b, hpassword]

theorem Clear.lacks_host (h : a.Clear) : Lacks ['/', '@'] (a.host.getD "") := by
  cases hhost : a.host with
  | none => exact fun c hc => absurd hc List.not_mem_nil
  | some host => exact (h.host host hhost).lacks

theorem Clear.lacks_place (h : a.Clear) : Lacks ['/', '@'] a.place := by
  unfold place
  split
  · next port _ =>
    rw [lacks_append, lacks_append, toString_eq]
    exact ⟨⟨h.lacks_host, by decide⟩, (lacks_decimal _).mono (by simp)⟩
  · exact h.lacks_host

/-- No host ends in a colon and a number. -/
theorem Clear.host_ne (h : a.Clear) (host : String) (port : Nat) :
    a.host.getD "" ≠ host ++ ":" ++ toString port := by
  intro heq
  rw [toString_eq] at heq
  have hlist := congrArg String.toList heq
  simp only [String.toList_append, String.toList_ofList] at hlist
  cases hhost : a.host with
  | none =>
      rw [hhost] at hlist
      simp at hlist
  | some text =>
      rw [hhost, Option.getD_some] at hlist
      have hlast := (h.host text hhost).colon (by simp [hlist])
      rw [hlist, List.getLast?_append] at hlast
      have hdigits : (Nat.toDigits 10 port).getLast? = some ']' := by
        cases hdigits : (Nat.toDigits 10 port).getLast? with
        | none => exact absurd (List.getLast?_eq_none_iff.1 hdigits) Nat.toDigits_ne_nil
        | some c =>
            rw [hdigits] at hlast
            exact hlast
      refine (lacks_decimal port).not_mem (c := ']') (by decide) ?_
      rw [String.toList_ofList]
      exact List.mem_of_getLast? hdigits

/-- Host and port are told by where the last colon outside brackets is. -/
theorem Clear.place_inj (ha : a.Clear) (hb : b.Clear) (h : a.place = b.place) :
    a.host = b.host ∧ a.port = b.port := by
  have hhost : a.host.getD "" = b.host.getD "" → a.host = b.host := by
    intro heq
    cases hhostA : a.host with
    | none =>
        cases hhostB : b.host with
        | none => rfl
        | some host =>
            rw [hhostA, hhostB] at heq
            exact absurd heq.symm (hb.host host hhostB).ne_empty
    | some host =>
        cases hhostB : b.host with
        | none =>
            rw [hhostA, hhostB] at heq
            exact absurd heq (ha.host host hhostA).ne_empty
        | some host' =>
            rw [hhostA, hhostB] at heq
            exact congrArg some heq
  unfold place at h
  cases hportA : a.port with
  | none =>
      rw [hportA] at h
      cases hportB : b.port with
      | none =>
          rw [hportB] at h
          exact ⟨hhost h, rfl⟩
      | some port =>
          rw [hportB] at h
          exact absurd h (ha.host_ne _ port)
  | some port =>
      rw [hportA] at h
      cases hportB : b.port with
      | none =>
          rw [hportB] at h
          exact absurd h.symm (hb.host_ne _ port)
      | some port' =>
          rw [hportB] at h
          have hcolon : ∀ n : Nat, ':' ∉ (Nat.toDigits 10 n).reverse := fun n hmem =>
            lacks_ofList.1 (lacks_decimal n) ':' (List.mem_reverse.1 hmem) (by decide)
          have hlist := congrArg (List.reverse ∘ String.toList) h
          simp only [toString_eq, Function.comp_apply, String.toList_append, String.toList_ofList,
            List.reverse_append] at hlist
          obtain ⟨hdigits, hname⟩ := append_cons_inj (hcolon port) (hcolon port') hlist
          have hport := congrArg (Nat.ofDigitChars 10 · 0) (List.reverse_inj.1 hdigits)
          simp only [Nat.ofDigitChars_toDigits (b := 10) (by decide) (by decide)] at hport
          exact ⟨hhost (String.toList_inj.1 (List.reverse_inj.1 hname)), congrArg some hport⟩

/-- The at sign behind the credentials is in no place. -/
theorem Clear.place_ne (h : a.Clear) (before after : String) :
    a.place ≠ before ++ "@" ++ after := by
  intro heq
  refine h.lacks_place.not_mem (c := '@') (by decide) ?_
  rw [heq]
  simp

/-- The text of an authority tells its credentials and its place. -/
theorem Clear.text_inj (ha : a.Clear) (hb : b.Clear)
    (h : a.userinfo ++ a.place = b.userinfo ++ b.place) :
    a.credentials = b.credentials ∧ a.place = b.place := by
  rw [userinfo_eq, userinfo_eq] at h
  by_cases hnoneA : a.credentials = ""
  · rw [if_pos hnoneA, String.empty_append] at h
    by_cases hnoneB : b.credentials = ""
    · rw [if_pos hnoneB, String.empty_append] at h
      exact ⟨hnoneA.trans hnoneB.symm, h⟩
    · rw [if_neg hnoneB] at h
      exact absurd h (ha.place_ne _ _)
  · rw [if_neg hnoneA] at h
    by_cases hnoneB : b.credentials = ""
    · rw [if_pos hnoneB, String.empty_append] at h
      exact absurd h.symm (hb.place_ne _ _)
    · have hlist := congrArg String.toList h
      simp only [if_neg hnoneB, String.toList_append, List.append_assoc] at hlist
      obtain ⟨hname, hplace⟩ := append_cons_inj (ha.lacks_credentials.not_mem (by decide))
        (hb.lacks_credentials.not_mem (by decide)) hlist
      exact ⟨String.toList_inj.1 hname, String.toList_inj.1 hplace⟩

/-- The text of an authority tells its parts. -/
theorem Clear.inj (ha : a.Clear) (hb : b.Clear)
    (h : a.userinfo ++ a.place = b.userinfo ++ b.place) : a = b := by
  obtain ⟨hcredentials, hplace⟩ := ha.text_inj hb h
  obtain ⟨hname, hpassword⟩ := ha.credentials_inj hb hcredentials
  obtain ⟨hhost, hport⟩ := ha.place_inj hb hplace
  obtain ⟨username, password, host, port⟩ := a
  obtain ⟨username', password', host', port'⟩ := b
  cases hname
  cases hpassword
  cases hhost
  cases hport
  rfl

end Authority

-- ===================================================== whole URLs

theorem toList_segments {segments : List String} (hne : segments ≠ []) :
    (Path.segments segments).toText.toList = '/' :: (joinWith '/' segments).toList := by
  unfold Path.toText joinWith
  rw [String.toList_ofList]
  dsimp only
  induction segments with
  | nil => exact absurd rfl hne
  | cons segment rest ih =>
      rw [List.map_cons, String.join_cons]
      cases rest with
      | nil => simp [join]
      | cons next rest =>
          rw [String.toList_append, ih (List.cons_ne_nil _ _)]
          simp [join]

/-- What is written behind the first slash of a path. -/
def tailText (segments : List String) (query : Option String) : List Char :=
  (joinWith '/' segments).toList ++ signed '?' query

theorem toList_withoutFragment {url : Url} {segments : List String} (hne : segments ≠ [])
    (hpath : url.path = .segments segments) :
    url.withoutFragment.toList
      = url.scheme.toList ++ ':' :: (url.front.toList ++ '/' :: tailText segments url.query) := by
  unfold withoutFragment tailText
  rw [hpath]
  cases url.query with
  | none => simp [signed, toList_segments hne]
  | some query => simp [signed, toList_segments hne]

/-- A path and a query are told by where the first question mark is. -/
theorem ClearPath.inj {a b : List String} (ha : ClearPath a) (hb : ClearPath b) (hneA : a ≠ [])
    (hneB : b ≠ []) {queryA queryB : Option String} (h : tailText a queryA = tailText b queryB) :
    a = b ∧ queryA = queryB := by
  have hmark : ∀ {segments : List String}, ClearPath segments →
      '?' ∉ (joinWith '/' segments).toList := by
    intro segments hclear
    have hjoined : Lacks ['?'] (joinWith '/' segments) :=
      lacks_joinWith (by decide) fun p hp => (hclear p hp).mono (by simp)
    exact hjoined.not_mem (by decide)
  have hslash : ∀ {segments : List String}, ClearPath segments →
      ∀ p ∈ segments, '/' ∉ p.toList := fun hclear p hp => (hclear p hp).not_mem (by decide)
  obtain ⟨hpath, hquery⟩ := signed_inj (hmark ha) (hmark hb) h
  refine ⟨?_, hquery⟩
  rw [← split_joinWith hneA (hslash ha), String.toList_inj.1 hpath,
    split_joinWith hneB (hslash hb)]

/-- What stands in front of a path without an authority. -/
theorem front_of_none {url : Url} {segments : List String} (hnone : url.authority = none)
    (hpath : url.path = .segments segments) (hne : segments ≠ []) :
    url.front.toList = ['/', '.'] ∧ (joinWith '/' segments).toList.head? = some '/'
      ∨ url.front.toList = [] ∧ (joinWith '/' segments).toList.head? ≠ some '/' := by
  have htext := toList_segments hne
  rw [← hpath] at htext
  generalize (joinWith '/' segments).toList = path at htext ⊢
  have hstarts : startsWith "//" url.path.toText = decide (path.head? = some '/') := by
    unfold startsWith
    rw [htext, show "//".toList = ['/', '/'] from rfl]
    cases path with
    | nil => rfl
    | cons c rest =>
        by_cases hc : '/' = c
        · simp [dropLead?, ← hc]
        · simp [dropLead?, hc, Ne.symm hc]
  unfold front
  rw [hnone]
  dsimp only
  rw [hstarts]
  by_cases hslash : path.head? = some '/'
  · exact .inl ⟨by simp [hslash], hslash⟩
  · exact .inr ⟨by simp [hslash], hslash⟩

/-- Where a path is taken for a point and another path, its first segment is
the point. -/
theorem ClearPath.of_point {segments : List String} (h : ClearPath segments)
    (hne : segments ≠ []) {query : Option String} {rest : List Char}
    (heq : tailText segments query = '.' :: '/' :: rest) : "." ∈ segments := by
  have hslash : ∀ p ∈ segments, '/' ∉ p.toList := fun p hp => (h p hp).not_mem (by decide)
  rw [← split_joinWith hne hslash]
  unfold tailText at heq
  unfold split
  cases htext : (joinWith '/' segments).toList with
  | nil =>
      rw [htext, List.nil_append] at heq
      exact absurd heq (signed_ne (by decide) _ _)
  | cons c text =>
      rw [htext, List.cons_append] at heq
      obtain ⟨rfl, htail⟩ := List.cons.inj heq
      cases text with
      | nil => exact absurd htail (signed_ne (by decide) _ _)
      | cons c text =>
          obtain ⟨rfl, -⟩ := List.cons.inj htail
          rw [show '.' :: '/' :: text = ['.'] ++ '/' :: text from rfl, pieces_append]
          exact List.mem_cons_self ..

theorem Clear.clearPath {url : Url} {segments : List String} (h : url.Clear)
    (hpath : url.path = .segments segments) : ClearPath segments := by
  have hclear := h.path
  rwa [hpath, getD_segments] at hclear

/-- Without an authority, no path is taken for a point and another path. -/
theorem Clear.tail_ne {url : Url} {segments : List String} (h : url.Clear)
    (hnone : url.authority = none) (hpath : url.path = .segments segments) (hne : segments ≠ [])
    (rest : List Char) : tailText segments url.query ≠ '.' :: '/' :: rest := by
  intro heq
  have hkept := h.kept hnone
  rw [hpath, getD_segments] at hkept
  exact hkept ((h.clearPath hpath).of_point hne heq)

theorem Authority.Clear.lacks_text {a : Authority} (h : a.Clear) :
    '/' ∉ (a.userinfo ++ a.place).toList := by
  have htext : Lacks ['/'] (a.userinfo ++ a.place) := by
    rw [lacks_append, Authority.userinfo_eq]
    refine ⟨?_, h.lacks_place.mono (by simp)⟩
    split
    · decide
    · rw [lacks_append]
      exact ⟨h.lacks_credentials.mono (by simp), by decide⟩
  exact htext.not_mem (by decide)

theorem front_of_some {url : Url} {a : Authority} (h : url.authority = some a) :
    url.front.toList = '/' :: '/' :: (a.userinfo ++ a.place).toList := by
  unfold front
  rw [h]
  simp

/-- What stands in front of a path tells whether there is an authority. -/
theorem front_ne {url : Url} {segments : List String} (hnone : url.authority = none)
    (hpath : url.path = .segments segments) (hne : segments ≠ []) (rest : List Char) :
    url.front.toList ++ '/' :: tailText segments url.query ≠ '/' :: '/' :: rest := by
  rcases front_of_none hnone hpath hne with ⟨hfront, -⟩ | ⟨hfront, hhead⟩
  · rw [hfront]
    simp
  · rw [hfront, List.nil_append]
    intro heq
    have htail := (List.cons.inj heq).2
    unfold tailText at htail
    cases htext : (joinWith '/' segments).toList with
    | nil =>
        rw [htext] at htail
        exact signed_ne (by decide) _ rest htail
    | cons c text =>
        rw [htext] at htail hhead
        obtain ⟨rfl, -⟩ := List.cons.inj htail
        exact hhead rfl

variable {a b : Url} {segmentsA segmentsB : List String}

/-- Two URLs without an authority that are written alike behind their schemes
are written alike behind the first slashes of their paths. -/
theorem Clear.tail_inj (ha : a.Clear) (hb : b.Clear) (hnoneA : a.authority = none)
    (hnoneB : b.authority = none) (hpathA : a.path = .segments segmentsA)
    (hpathB : b.path = .segments segmentsB) (hneA : segmentsA ≠ []) (hneB : segmentsB ≠ [])
    (h : a.front.toList ++ '/' :: tailText segmentsA a.query
      = b.front.toList ++ '/' :: tailText segmentsB b.query) :
    tailText segmentsA a.query = tailText segmentsB b.query := by
  rcases front_of_none hnoneA hpathA hneA with ⟨hfrontA, -⟩ | ⟨hfrontA, -⟩
  · rcases front_of_none hnoneB hpathB hneB with ⟨hfrontB, -⟩ | ⟨hfrontB, -⟩
    · rw [hfrontA, hfrontB] at h
      simpa using h
    · rw [hfrontA, hfrontB] at h
      exact absurd (List.cons.inj h).2.symm (hb.tail_ne hnoneB hpathB hneB _)
  · rcases front_of_none hnoneB hpathB hneB with ⟨hfrontB, -⟩ | ⟨hfrontB, -⟩
    · rw [hfrontA, hfrontB] at h
      exact absurd (List.cons.inj h).2 (ha.tail_ne hnoneA hpathA hneA _)
    · rw [hfrontA, hfrontB] at h
      simpa using h

/-- What follows the scheme tells the authority, and what is behind the
first slash of the path. -/
theorem Clear.front_inj (ha : a.Clear) (hb : b.Clear) (hpathA : a.path = .segments segmentsA)
    (hpathB : b.path = .segments segmentsB) (hneA : segmentsA ≠ []) (hneB : segmentsB ≠ [])
    (h : a.front.toList ++ '/' :: tailText segmentsA a.query
      = b.front.toList ++ '/' :: tailText segmentsB b.query) :
    a.authority = b.authority ∧ tailText segmentsA a.query = tailText segmentsB b.query := by
  cases hauthorityA : a.authority with
  | some authorityA =>
      rw [front_of_some hauthorityA] at h
      cases hauthorityB : b.authority with
      | some authorityB =>
          rw [front_of_some hauthorityB] at h
          have hcleanA := ha.authority authorityA hauthorityA
          have hcleanB := hb.authority authorityB hauthorityB
          obtain ⟨htext, htail⟩ := append_cons_inj hcleanA.lacks_text hcleanB.lacks_text
            (List.cons.inj (List.cons.inj h).2).2
          exact ⟨congrArg some (hcleanA.inj hcleanB (String.toList_inj.1 htext)), htail⟩
      | none => exact absurd h.symm (front_ne hauthorityB hpathB hneB _)
  | none =>
      cases hauthorityB : b.authority with
      | some authorityB =>
          rw [front_of_some hauthorityB] at h
          exact absurd h (front_ne hauthorityA hpathA hneA _)
      | none => exact ⟨rfl, ha.tail_inj hb hauthorityA hauthorityB hpathA hpathB hneA hneB h⟩

/-- The text of a URL tells its scheme, its authority, its path if this has
segments, and its query. -/
theorem Clear.inj (ha : a.Clear) (hb : b.Clear) (hpathA : a.path = .segments segmentsA)
    (hpathB : b.path = .segments segmentsB) (hneA : segmentsA ≠ []) (hneB : segmentsB ≠ [])
    (h : a.withoutFragment = b.withoutFragment) :
    a.scheme = b.scheme ∧ a.authority = b.authority ∧ a.path = b.path ∧ a.query = b.query := by
  have htext := congrArg String.toList h
  rw [toList_withoutFragment hneA hpathA, toList_withoutFragment hneB hpathB] at htext
  obtain ⟨hscheme, hrest⟩ := append_cons_inj ha.scheme hb.scheme htext
  obtain ⟨hauthority, htail⟩ := ha.front_inj hb hpathA hpathB hneA hneB hrest
  obtain ⟨hsegments, hquery⟩ :=
    (ha.clearPath hpathA).inj (hb.clearPath hpathB) hneA hneB htail
  exact ⟨String.toList_inj.1 hscheme, hauthority, by rw [hpathA, hpathB, hsegments], hquery⟩

end Depot.Url
