/-
Parts of a URL lack the signs that end them. Whatever is read, its scheme
has no colon, the user name and the password have no colon, slash or at sign,
the host has colons in brackets only, and the segments have no slash and no
question mark (`parse_clear`). For a sign is escaped there, or it has ended
the part, or it is refused.
-/
import Mathlib.Data.List.TakeDrop
import Depot.Proofs.Url.Segments
import Depot.Proofs.Text.Ascii

namespace Depot.Url

open Text

-- ===================================================== signs

/-- Text without any of these characters. -/
def Lacks (signs : List Char) (s : String) : Prop := ∀ c ∈ s.toList, c ∉ signs

instance (signs : List Char) (s : String) : Decidable (Lacks signs s) :=
  List.decidableBAll (fun c => c ∉ signs) s.toList

theorem Lacks.not_mem {signs : List Char} {s : String} (h : Lacks signs s) {c : Char}
    (hc : c ∈ signs) : c ∉ s.toList := fun hmem => h c hmem hc

theorem lacks_append {signs : List Char} {a b : String} :
    Lacks signs (a ++ b) ↔ Lacks signs a ∧ Lacks signs b := by
  unfold Lacks
  rw [String.toList_append]
  exact List.forall_mem_append

theorem lacks_ofList {signs s : List Char} :
    Lacks signs (String.ofList s) ↔ ∀ c ∈ s, c ∉ signs := by
  unfold Lacks
  rw [String.toList_ofList]

/-- The characters that escapes are written in. -/
def escapeChars : List Char :=
  ['%', '0', '1', '2', '3', '4', '5', '6', '7', '8', '9', 'A', 'B', 'C', 'D', 'E', 'F']

theorem mem_escapeByte {b : UInt8} {c : Char} (h : c ∈ escapeByte b) : c ∈ escapeChars := by
  have hdigit : ∀ n < 16, escapeDigit n ∈ escapeChars := by decide
  have hb := b.toNat_lt
  unfold escapeByte at h
  simp only [List.mem_cons, List.not_mem_nil, or_false] at h
  rcases h with rfl | rfl | rfl
  · decide
  · exact hdigit _ (by omega)
  · exact hdigit _ (by omega)

/-- What is not written in an escape was there, and is not escaped. -/
theorem mem_encode {set : Char → Bool} {s : List Char} {c : Char} (h : c ∈ encode set s) :
    c ∈ s ∧ set c = false ∨ c ∈ escapeChars := by
  unfold encode at h
  obtain ⟨x, hx, hc⟩ := List.mem_flatMap.1 h
  split at hc
  · obtain ⟨b, -, hb⟩ := List.mem_flatMap.1 hc
    exact .inr (mem_escapeByte hb)
  · next hset =>
    obtain rfl := List.mem_singleton.1 hc
    exact .inl ⟨hx, by simpa using hset⟩

/-- Signs that are escaped, or are not there, are lacking then. -/
theorem lacks_encode {signs : List Char} {set : Char → Bool} {s : List Char}
    (hsigns : ∀ c ∈ signs, c ∉ escapeChars) (h : ∀ c ∈ signs, set c = true ∨ c ∉ s) :
    Lacks signs (String.ofList (encode set s)) := by
  rw [lacks_ofList]
  intro c hc hsign
  rcases mem_encode hc with ⟨hmem, hset⟩ | hescape
  · rcases h c hsign with hin | hnot
    · rw [hset] at hin
      cases hin
    · exact hnot hmem
  · exact hsigns c hsign hescape

-- ===================================================== authorities

/-- Text that can be a host: it is not empty, it has no slash and no at sign,
and it has colons in brackets only. -/
structure IsHost (s : String) : Prop where
  ne_empty : s ≠ ""
  lacks : Lacks ['/', '@'] s
  colon : ':' ∈ s.toList → s.toList.getLast? = some ']'

theorem IsHost.of_lacks {s : String} (hne : s ≠ "") (h : Lacks ['/', '@', ':'] s) : IsHost s where
  ne_empty := hne
  lacks c hc hsign := h c hc (by
    simp only [List.mem_cons, List.not_mem_nil, or_false] at hsign ⊢
    rcases hsign with rfl | rfl <;> simp)
  colon hmem := absurd hmem (h.not_mem (by decide))

/-- A digit in any base is one of the sixteen, or an asterisk. -/
theorem mem_toDigits {base n : Nat} {c : Char} (hbase : 1 < base) (h : c ∈ Nat.toDigits base n) :
    ∃ d : Nat, c = d.digitChar := by
  induction n using Nat.strongRecOn with
  | _ n ih =>
      by_cases hlt : n < base
      · rw [Nat.toDigits_of_lt_base hlt] at h
        exact ⟨n, List.mem_singleton.1 h⟩
      · rw [Nat.toDigits_of_base_le hbase (Nat.not_lt.1 hlt)] at h
        rcases List.mem_append.1 h with h | h
        · exact ih _ (Nat.div_lt_self (by omega) hbase) h
        · exact ⟨_, List.mem_singleton.1 h⟩

theorem lacks_joinWith {signs : List Char} {c : Char} {parts : List String} (hc : c ∉ signs)
    (h : ∀ p ∈ parts, Lacks signs p) : Lacks signs (joinWith c parts) := by
  unfold joinWith
  rw [lacks_ofList]
  induction parts with
  | nil => exact fun x hx => absurd hx List.not_mem_nil
  | cons p parts ih =>
      obtain ⟨hp, hparts⟩ := List.forall_mem_cons.1 h
      cases parts with
      | nil => exact hp
      | cons q parts =>
          intro x hx
          rw [List.map_cons, List.map_cons, join, List.mem_append, List.mem_cons] at hx
          rcases hx with hx | rfl | hx
          · exact hp x hx
          · exact hc
          · exact ih hparts x hx

theorem lacks_numeral {base n : Nat} (hbase : 1 < base) :
    Lacks ['/', '@', ':', ']'] (String.ofList (Nat.toDigits base n)) := by
  rw [lacks_ofList]
  intro c hc hsign
  obtain ⟨d, rfl⟩ := mem_toDigits hbase hc
  simp only [List.mem_cons, List.not_mem_nil, or_false] at hsign
  rcases hsign with h | h | h | h <;> exact Nat.digitChar_ne _ (by decide) h

theorem lacks_decimal (n : Nat) :
    Lacks ['/', '@', ':', ']'] (String.ofList (Nat.toDigits 10 n)) := lacks_numeral (by decide)

theorem toString_eq (n : Nat) : toString n = String.ofList (Nat.toDigits 10 n) := by
  rw [← String.toList_inj, String.toList_ofList]
  exact Nat.toList_repr

theorem Lacks.mono {signs signs' : List Char} {s : String} (h : Lacks signs s)
    (hsigns : signs' ⊆ signs) : Lacks signs' s := fun c hc hsign => h c hc (hsigns hsign)

theorem lacks_piecesText (pieces : List Nat) : Lacks ['/', '@'] (piecesText pieces) := by
  refine lacks_joinWith (by decide) fun p hp => ?_
  obtain ⟨n, -, rfl⟩ := List.mem_map.1 hp
  exact (lacks_numeral (by decide)).mono (by simp)

theorem isHost_ipv6Text (pieces : List Nat) : IsHost (ipv6Text pieces) := by
  have hbrackets : ∀ inner : String, Lacks ['/', '@'] inner → IsHost ("[" ++ inner ++ "]") := by
    intro inner hinner
    refine ⟨fun heq => ?_, ?_, fun _ => ?_⟩
    · have hlist := congrArg String.toList heq
      rw [String.toList_append] at hlist
      simp at hlist
    · rw [lacks_append, lacks_append]
      exact ⟨⟨by decide, hinner⟩, by decide⟩
    · rw [String.toList_append, List.getLast?_append]
      rfl
  unfold ipv6Text
  dsimp only
  split
  · exact hbrackets _ (lacks_piecesText _)
  · have hinner : ∀ a b : String,
        "[" ++ a ++ "::" ++ b ++ "]" = "[" ++ (a ++ "::" ++ b) ++ "]" := by
      intro a b
      simp only [String.append_assoc]
    rw [hinner]
    refine hbrackets _ ?_
    rw [lacks_append, lacks_append]
    exact ⟨⟨lacks_piecesText _, by decide⟩, lacks_piecesText _⟩

theorem isHost_bracketed {s : List Char} {host : String} (h : bracketed s = .ok host) :
    IsHost host := by
  unfold bracketed at h
  split at h
  · split at h
    · cases h
      exact isHost_ipv6Text _
    · cases h
  · cases h

theorem isHost_ipv4Text (address : Nat) : IsHost (ipv4Text address) := by
  unfold ipv4Text
  refine .of_lacks (fun heq => ?_) (lacks_joinWith (by decide) fun p hp => ?_)
  · have hlist := congrArg String.toList heq
    unfold joinWith at hlist
    rw [String.toList_ofList] at hlist
    simp [join] at hlist
  · obtain ⟨i, -, rfl⟩ := List.mem_map.1 hp
    rw [toString_eq]
    exact (lacks_decimal _).mono (by simp)

/-- The host of a special URL. -/
theorem isHost_domain {s : List Char} {host : String} (h : domain s = .ok host) : IsHost host := by
  unfold domain at h
  split at h
  · exact isHost_bracketed h
  · split at h
    · cases h
    · dsimp only at h
      split at h
      · cases h
      · next hallowed =>
        split at h
        · cases h
        · split at h
          · cases h
          · next hne =>
            split at h
            · split at h
              · cases h
                exact isHost_ipv4Text _
              · cases h
            · cases h
              refine .of_lacks (by simpa using hne) (lacks_ofList.2 fun c hc hsign => hallowed ?_)
              refine List.any_eq_true.2 ⟨c, hc, ?_⟩
              simp only [List.mem_cons, List.not_mem_nil, or_false] at hsign
              rcases hsign with rfl | rfl | rfl <;> decide

theorem encode_ne_nil {set : Char → Bool} {s : List Char} (h : s ≠ []) : encode set s ≠ [] := by
  cases s with
  | nil => exact absurd rfl h
  | cons c s =>
      unfold encode
      rw [List.flatMap_cons]
      intro heq
      have hfirst := (List.append_eq_nil_iff.1 heq).1
      split at hfirst
      · rw [List.flatMap_eq_nil_iff] at hfirst
        cases hbytes : String.utf8EncodeChar c with
        | nil => exact absurd hbytes (by simp)
        | cons b rest =>
            rw [hbytes] at hfirst
            cases hfirst b (List.mem_cons_self ..)
      · cases hfirst

/-- The host of another URL. -/
theorem isHost_plainHost {s : List Char} {host : String} (hs : s ≠ [])
    (h : plainHost s = .ok host) : IsHost host := by
  unfold plainHost at h
  split at h
  · exact isHost_bracketed h
  · split at h
    · cases h
    · next hallowed =>
      cases h
      refine .of_lacks ?_
        (lacks_encode (by simp [escapeChars]) fun c hsign => .inr fun hc => hallowed ?_)
      · rw [Ne, ← String.toList_inj, String.toList_ofList]
        exact encode_ne_nil hs
      · refine List.any_eq_true.2 ⟨c, hc, ?_⟩
        simp only [List.mem_cons, List.not_mem_nil, or_false] at hsign
        rcases hsign with rfl | rfl | rfl <;> decide

/-- An authority whose parts lack the signs that end them. -/
structure Authority.Clear (a : Authority) : Prop where
  username : Lacks ['/', ':', '@'] a.username
  password : Lacks ['/', ':', '@'] a.password
  host : ∀ host, a.host = some host → IsHost host

theorem isHost_host? {k : Kind} {s : List Char} {host : String} (h : host? k s = .ok (some host)) :
    IsHost host := by
  unfold host? at h
  split at h
  · split at h <;> cases h
  · next hne =>
    split at h
    · cases h
    · next hread =>
      cases h
      split at hread
      · exact isHost_plainHost (by simpa using hne) hread
      · exact isHost_domain hread

theorem lacks_userinfo (s : List Char) :
    Lacks ['/', ':', '@'] (userinfo s).1 ∧ Lacks ['/', ':', '@'] (userinfo s).2 := by
  have hencoded : ∀ part, Lacks ['/', ':', '@'] (String.ofList (encode inUserinfoSet part)) :=
    fun part => lacks_encode (by simp [escapeChars]) fun c hsign => .inl (by
      simp only [List.mem_cons, List.not_mem_nil, or_false] at hsign
      rcases hsign with rfl | rfl | rfl <;> decide)
  unfold userinfo
  dsimp only
  split
  · exact ⟨hencoded _, hencoded _⟩
  · exact ⟨hencoded _, fun c hc => absurd hc List.not_mem_nil⟩

/-- A computation that succeeds goes on from a result. -/
theorem ok_of_bind {α β : Type} {first : Except UrlFault α} {next : α → Except UrlFault β} {b : β}
    (h : first >>= next = .ok b) : ∃ a, first = .ok a ∧ next a = .ok b := by
  cases first with
  | error e => cases h
  | ok a => exact ⟨a, rfl, h⟩

theorem clear_readAuthority {k : Kind} {scheme : String} {last : Bool} {s rest : List Char}
    {a : Authority} (h : readAuthority k scheme last s = .ok (a, rest)) : a.Clear := by
  unfold readAuthority at h
  cases hlast : lastAt? s
  all_goals
    rw [hlast] at h
    dsimp only at h
    split at h
    · cases h
    · obtain ⟨host, hhost, h⟩ := ok_of_bind h
      split at h
      · cases h
      · obtain ⟨port, -, h⟩ := ok_of_bind h
        split at h
        · cases h
        · cases h
          refine ⟨(lacks_userinfo _).1, (lacks_userinfo _).2, fun name hname => ?_⟩
          obtain rfl : host = some name := hname
          exact isHost_host? hhost

-- ===================================================== paths

/-- Segments are written without slashes and question marks. -/
def ClearPath (segments : List String) : Prop := ∀ segment ∈ segments, Lacks ['/', '?'] segment

theorem lacks_segmentOf {piece : List Char} (h : '/' ∉ piece) :
    Lacks ['/', '?'] (segmentOf piece) := by
  refine lacks_encode (by simp [escapeChars]) fun c hsign => ?_
  simp only [List.mem_cons, List.not_mem_nil, or_false] at hsign
  rcases hsign with rfl | rfl
  · exact .inr fun hmem => h (List.mem_filter.1 hmem).1
  · exact .inl (by decide)

theorem lacks_drive {letter : Char} (h : letter.isAlpha = true) :
    Lacks ['/', '?'] (String.ofList [letter, ':']) := by
  rw [lacks_ofList]
  intro c hc hsign
  simp only [List.mem_cons, List.not_mem_nil, or_false] at hc hsign
  rcases hc with rfl | rfl
  · rcases hsign with rfl | rfl <;> revert h <;> decide
  · rcases hsign with h | h <;> revert h <;> decide

theorem not_mem_slashPieces {k : Kind} {s piece : List Char} (h : piece ∈ slashPieces k s) :
    '/' ∉ piece := by
  induction s generalizing piece with
  | nil =>
      obtain rfl := List.mem_singleton.1 h
      exact List.not_mem_nil
  | cons c s ih =>
      rw [slashPieces] at h
      split at h
      · rcases List.mem_cons.1 h with rfl | h
        · exact List.not_mem_nil
        · exact ih h
      · next hslash =>
        have hc : c ≠ '/' := by
          rintro rfl
          exact hslash rfl
        split at h
        · obtain rfl := List.mem_singleton.1 h
          simpa using Ne.symm hc
        · next p ps heq =>
          rw [heq] at ih
          rcases List.mem_cons.1 h with rfl | h
          · simpa using ⟨Ne.symm hc, ih (List.mem_cons_self ..)⟩
          · exact ih (List.mem_cons_of_mem _ h)

theorem lacks_drivePiece {piece : List Char} {drive name : String} (hpiece : '/' ∉ piece)
    (h : drivePiece? piece = some (drive, name)) :
    Lacks ['/', '?'] drive ∧ Lacks ['/', '?'] name := by
  unfold drivePiece? at h
  split at h
  · next letter rest hfirst =>
    split at h
    · next rest' hsecond =>
      split at h
      · next hdrive =>
        cases h
        simp only [Bool.and_eq_true] at hdrive
        refine ⟨lacks_drive hdrive.1.1, lacks_segmentOf fun hmem => hpiece ?_⟩
        have hrest : '/' ∈ rest := by
          refine (List.dropWhile_sublist isBreak).mem ?_
          rw [hsecond]
          exact List.mem_cons_of_mem _ hmem
        refine (List.dropWhile_sublist isBreak).mem ?_
        rw [hfirst]
        exact List.mem_cons_of_mem _ hrest
      · cases h
    · cases h
  · cases h

theorem clearPath_nil : ClearPath [] := fun _ hmem => absurd hmem List.not_mem_nil

theorem ClearPath.push {above : List String} {segment : String} (h : ClearPath above)
    (hsegment : Lacks ['/', '?'] segment) : ClearPath (segment :: above) :=
  List.forall_mem_cons.2 ⟨hsegment, h⟩

theorem ClearPath.shorten {above : List String} (h : ClearPath above) :
    ClearPath (shorten above) := by
  cases above with
  | nil => exact h
  | cons segment above =>
      rw [Url.shorten]
      split
      · exact h
      · exact (List.forall_mem_cons.1 h).2

theorem ClearPath.enter {k : Kind} {t : Trail} {piece : List Char} (h : ClearPath t.above)
    (hpiece : '/' ∉ piece) : ClearPath (t.enter k piece).above := by
  have hpush : ClearPath (t.push (segmentOf piece)).above := h.push (lacks_segmentOf hpiece)
  unfold Trail.enter
  split
  · split
    · split
      · next hdrive =>
        exact clearPath_nil.push (lacks_drive (Bool.and_eq_true_iff.1 hdrive).1)
      · exact hpush
    · split
      · next drive name hdrive =>
        obtain ⟨hfirst, hname⟩ := lacks_drivePiece hpiece hdrive
        exact (clearPath_nil.push hfirst).push hname
      · exact hpush
  · exact hpush

theorem clearPath_resolve (k : Kind) (s : List Char) : ClearPath (resolve k (slashPieces k s)) :=
  fun segment hmem => Trail.through_of (P := ClearPath) (t := {}) (fun _ => ClearPath.shorten)
    (fun _ h => h.push (by decide))
    (fun _ hpiece _ _ _ h => h.enter (not_mem_slashPieces hpiece)) clearPath_nil segment
    (List.mem_reverse.1 hmem)

/-- Segments that stand for their directory are not kept. -/
theorem not_mem_resolve (s : List Char) : "." ∉ resolve .plain (slashPieces .plain s) := by
  intro hmem
  refine Trail.through_of (P := ("." ∉ ·)) (k := .plain) (t := {}) (fun above h hmem => h ?_)
    (fun _ h hmem => (List.mem_cons.1 hmem).elim (by decide) h) (fun piece _ _ hdot t h hmem => ?_)
    List.not_mem_nil (List.mem_reverse.1 hmem)
  · cases above with
    | nil => exact hmem
    | cons segment above =>
        rw [Url.shorten] at hmem
        split at hmem
        · exact hmem
        · exact List.mem_cons_of_mem _ hmem
  · refine (List.mem_cons.1 hmem).elim (fun heq => ?_) h
    rw [← heq] at hdot
    cases hdot

theorem clearPath_filePath (s : List Char) : ClearPath (filePath s).1 := by
  have htrail : ClearPath (Trail.through .file {} (slashPieces .file s)).above.reverse :=
    clearPath_resolve .file s
  unfold filePath
  dsimp only
  split
  · intro segment hmem
    obtain rfl := List.mem_singleton.1 hmem
    decide
  · exact fun segment hmem => htrail segment ((List.dropWhile_sublist _).mem hmem)

theorem clearPath_specialPath (s : List Char) : ClearPath (specialPath s) := clearPath_resolve _ _

theorem clearPath_plainPath (s : List Char) : ClearPath (plainPath s) := by
  unfold plainPath
  split
  · exact clearPath_nil
  · exact clearPath_resolve _ _
  · exact clearPath_resolve _ _

-- ===================================================== whole URLs

/-- A URL whose parts lack the signs that end them. -/
structure Clear (url : Url) : Prop where
  scheme : ':' ∉ url.scheme.toList
  authority : ∀ a, url.authority = some a → a.Clear
  path : ClearPath (url.path.segments?.getD [])
  /-- What is put in front of a path without an authority is no segment. -/
  kept : url.authority = none → "." ∉ url.path.segments?.getD []

/-- No scheme has a colon. -/
theorem not_mem_scheme? {s rest : List Char} {scheme : String}
    (h : scheme? s = some (scheme, rest)) : ':' ∉ scheme.toList := by
  unfold scheme? at h
  rw [List.span_eq_takeWhile_dropWhile] at h
  dsimp only at h
  split at h
  · next c name rest' hname _ =>
    split at h
    · cases h
      rw [String.toList_ofList]
      intro hmem
      obtain ⟨x, hx, hlower⟩ := List.mem_map.1 hmem
      have hin : inScheme x = true := by
        simpa using List.all_eq_true.1 (List.all_takeWhile (p := inScheme) (l := s)) x hx
      rcases toLower_cases x with hsame | ⟨hupper, -, hmoved⟩
      · rw [← hsame, hlower] at hin
        revert hin
        decide
      · rw [hlower] at hmoved
        have hsmall : ':'.toNat = 58 := rfl
        omega
    · cases h
  · cases h

theorem clear_withAuthority {k : Kind} {scheme : String} {s : List Char} {url : Url}
    (hscheme : ':' ∉ scheme.toList) (h : withAuthority k scheme s = .ok url) : Clear url := by
  unfold withAuthority at h
  dsimp only at h
  obtain ⟨⟨a, left⟩, hread, h⟩ := ok_of_bind h
  cases h
  refine ⟨hscheme, fun a' ha' => ?_, ?_, nofun⟩
  · obtain rfl : a = a' := Option.some.inj ha'
    exact clear_readAuthority hread
  · rw [getD_segments]
    split
    · exact clearPath_plainPath _
    · exact clearPath_specialPath _

theorem clear_withoutAuthority {scheme : String} (hscheme : ':' ∉ scheme.toList) (s : List Char) :
    Clear (withoutAuthority scheme s) := by
  unfold withoutAuthority
  dsimp only
  split
  · refine ⟨hscheme, nofun, ?_, fun _ => ?_⟩
    · dsimp only
      rw [getD_segments]
      exact clearPath_resolve _ _
    · dsimp only
      rw [getD_segments]
      exact not_mem_resolve _
  · exact ⟨hscheme, nofun, clearPath_nil, fun _ => List.not_mem_nil⟩

theorem clear_fileUrl {host : Option String} (hhost : ∀ name, host = some name → IsHost name)
    (path rest : List Char) : Clear (fileUrl host path rest) := by
  unfold fileUrl
  dsimp only
  refine ⟨show ':' ∉ "file".toList by decide, fun a ha => ?_, ?_, nofun⟩
  · obtain rfl := Option.some.inj ha
    have hempty : Lacks ['/', ':', '@'] "" := by decide
    refine ⟨hempty, hempty, fun name hname => hhost name ?_⟩
    dsimp only at hname
    split at hname
    · cases hname
    · exact hname
  · dsimp only
    rw [getD_segments]
    exact clearPath_filePath path

theorem clear_fileUrl_none (path rest : List Char) : Clear (fileUrl none path rest) :=
  clear_fileUrl (fun _ hname => by cases hname) path rest

theorem clear_fileWithHost {s : List Char} {url : Url} (h : fileWithHost s = .ok url) :
    Clear url := by
  unfold fileWithHost at h
  dsimp only at h
  split at h
  · cases h
    exact clear_fileUrl_none _ _
  · split at h
    · cases h
      exact clear_fileUrl_none _ _
    · split at h
      · cases h
      · cases h
        exact clear_fileUrl_none _ _
      · next hdomain =>
        cases h
        exact clear_fileUrl (fun name hname => Option.some.inj hname ▸ isHost_domain hdomain) _ _

theorem clear_file {s : List Char} {url : Url} (h : file s = .ok url) : Clear url := by
  have hrest : ∀ (start : List Char) (host : Bool),
      (if host then fileWithHost start.tail
        else .ok (fileUrl none (start.span (!endsPath ·)).1 (start.span (!endsPath ·)).2))
        = .ok url →
      Clear url := by
    intro start host h
    cases host with
    | true => exact clear_fileWithHost h
    | false =>
        cases h
        exact clear_fileUrl_none _ _
  exact hrest _ _ h

/-- The parts of every URL that is read lack the signs that end them. -/
theorem parse_clear {text : String} {url : Url} (h : parse text = .ok url) : Clear url := by
  unfold parse at h
  dsimp only at h
  split at h
  · cases h
  · next scheme rest hread =>
    have hscheme := not_mem_scheme? hread
    split at h
    · exact clear_withAuthority hscheme h
    · exact clear_file h
    · split at h
      · exact clear_withAuthority hscheme h
      · cases h
        exact clear_withoutAuthority hscheme _

end Depot.Url
