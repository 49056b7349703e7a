/-
Segments that lead upwards. A segment is decoded to two points only if it
is written as such, with a point or its escape for each
(`isDotDot_of_decodeText`); and of the segments of a URL the first that is
not empty never is one (`parse_firstStays`, `FirstStays.filter`), since
these are resolved when the URL is read, except behind a drive, which then
is the first.
-/
import Depot.Proofs.Url.Escape
import Depot.Url.Parse

namespace Depot.Url

/-- A segment that is decoded to two points stands for the directory
above. -/
theorem isDotDot_of_decodeText {segment : String} (h : decodeText segment = "..") :
    isDotDot segment = true := by
  have hbytes := Bytes.decodeLossy_points (n := 2) (congrArg String.toList h)
  obtain ⟨a, more, hs, hmore, ha⟩ := decode_point hbytes
  obtain ⟨b, last, rfl, hlast, hb⟩ := decode_point hmore
  obtain rfl := decode_eq_nil hlast
  rw [← String.ofList_toList (s := segment), hs]
  simp only [List.mem_cons, List.not_mem_nil, or_false] at ha hb
  rcases ha with rfl | rfl | rfl <;> rcases hb with rfl | rfl | rfl <;> decide

-- ===================================================== trails

/-- Segments, the last one first, of which none leads upwards unless the
first of all is a drive. -/
def Rooted (above : List String) : Prop :=
  (∀ segment ∈ above, isDotDot segment = false)
    ∨ ∃ rest drive, above = rest ++ [drive] ∧ staysAbove drive = true

/-- A drive is a name. -/
theorem of_staysAbove {segment : String} (h : staysAbove segment = true) :
    segment ≠ "" ∧ isDotDot segment = false := by
  refine ⟨fun heq => ?_, ?_⟩
  · subst heq
    cases h
  · rw [← Bool.not_eq_true]
    intro hup
    simp only [isDotDot, List.contains_eq_mem, decide_eq_true_eq, List.mem_cons, List.not_mem_nil,
      or_false] at hup
    rcases hup with rfl | rfl | rfl | rfl | rfl | rfl | rfl | rfl | rfl <;> revert h <;> decide

/-- A letter with a colon is a drive. -/
theorem staysAbove_letter {letter : Char} (h : letter.isAlpha = true) :
    staysAbove (String.ofList [letter, ':']) = true := by
  unfold staysAbove isDrive
  rw [String.toList_ofList]
  simp [h]

theorem staysAbove_drivePiece {piece : List Char} {drive name : String}
    (h : drivePiece? piece = some (drive, name)) : staysAbove drive = true := by
  unfold drivePiece? at h
  split at h
  · split at h
    · split at h
      · next hletter =>
        cases h
        simp only [Bool.and_eq_true] at hletter
        exact staysAbove_letter hletter.1.1
      · cases h
    · cases h
  · cases h

theorem Rooted.push {above : List String} {segment : String} (h : Rooted above)
    (hsegment : isDotDot segment = false) : Rooted (segment :: above) := by
  rcases h with h | ⟨rest, drive, rfl, hdrive⟩
  · exact .inl (List.forall_mem_cons.2 ⟨hsegment, h⟩)
  · exact .inr ⟨segment :: rest, drive, rfl, hdrive⟩

/-- Going upwards does not lose the drive. -/
theorem Rooted.shorten {above : List String} (h : Rooted above) : Rooted (shorten above) := by
  cases above with
  | nil => exact h
  | cons segment above =>
      rw [Url.shorten]
      split
      · exact h
      · next hstays =>
        rcases h with h | ⟨rest, drive, heq, hdrive⟩
        · exact .inl fun other hmem => h other (List.mem_cons_of_mem _ hmem)
        · cases rest with
          | nil =>
              obtain ⟨rfl, -⟩ := List.cons.inj heq
              exact absurd hdrive hstays
          | cons x rest => exact .inr ⟨rest, drive, (List.cons.inj heq).2, hdrive⟩

theorem Rooted.enter {k : Kind} {t : Trail} {piece : List Char} (h : Rooted t.above)
    (hpiece : isDotDot (segmentOf piece) = false) : Rooted (t.enter k piece).above := by
  have hpush : Rooted (t.push (segmentOf piece)).above := h.push hpiece
  unfold Trail.enter
  split
  · split
    · split
      · next hdrive =>
        exact .inr ⟨[], _, rfl, staysAbove_letter (Bool.and_eq_true_iff.1 hdrive).1⟩
      · exact hpush
    · split
      · next drive name hdrive => exact .inr ⟨[name], drive, rfl, staysAbove_drivePiece hdrive⟩
      · exact hpush
  · exact hpush

/-- What holds of the segments at first, and still does above, with an empty
segment or with a piece that stands for no directory, holds of them once all
pieces are put. -/
theorem Trail.through_of {P : List String → Prop} {k : Kind} {pieces : List (List Char)}
    {t : Trail} (hshorten : ∀ above, P above → P (Url.shorten above))
    (hempty : ∀ above, P above → P ("" :: above))
    (henter : ∀ piece ∈ pieces, isDotDot (segmentOf piece) = false →
      isDot (segmentOf piece) = false → ∀ t : Trail, P t.above → P (t.enter k piece).above)
    (h : P t.above) : P (t.through k pieces).above := by
  induction pieces generalizing t with
  | nil => exact h
  | cons piece rest ih =>
      obtain ⟨hpiece, hrest⟩ := List.forall_mem_cons.1 henter
      have hnext : ∀ t' : Trail, P t'.above →
          P (if rest.isEmpty then t'.push "" else t'.through k rest).above := by
        intro t' ht'
        split
        · exact hempty _ ht'
        · exact ih hrest ht'
      unfold Trail.through
      cases hup : isDotDot (segmentOf piece) with
      | true =>
          simp only [hup, ↓reduceIte]
          exact hnext t.shorten (hshorten _ h)
      | false =>
          simp only [hup, Bool.false_eq_true, ↓reduceIte]
          cases hdot : isDot (segmentOf piece) with
          | true => exact hnext t h
          | false => exact ih hrest (hpiece hup hdot t h)

/-- Whatever pieces are put one after the other. -/
theorem Rooted.through {k : Kind} {pieces : List (List Char)} {t : Trail} (h : Rooted t.above) :
    Rooted (t.through k pieces).above :=
  Trail.through_of (fun _ => Rooted.shorten) (fun _ h => h.push (by decide))
    (fun _ _ hup _ _ h => h.enter hup) h

-- ===================================================== whole URLs

/-- Segments of which none leads upwards unless the first is a drive. -/
def FirstStays (segments : List String) : Prop :=
  (∀ segment ∈ segments, isDotDot segment = false)
    ∨ ∃ drive rest, segments = drive :: rest ∧ staysAbove drive = true

theorem Rooted.reverse {above : List String} (h : Rooted above) : FirstStays above.reverse := by
  rcases h with h | ⟨rest, drive, rfl, hdrive⟩
  · exact .inl fun segment hmem => h segment (List.mem_reverse.1 hmem)
  · exact .inr ⟨drive, rest.reverse, by simp, hdrive⟩

theorem firstStays_nil : FirstStays [] := .inl nofun

theorem firstStays_resolve (k : Kind) (pieces : List (List Char)) : FirstStays (resolve k pieces) :=
  (Rooted.through (t := {}) (.inl fun _ hmem => absurd hmem List.not_mem_nil)).reverse

theorem firstStays_filePath (s : List Char) : FirstStays (filePath s).1 := by
  have htrail : FirstStays (Trail.through .file {} (slashPieces .file s)).above.reverse :=
    firstStays_resolve .file (slashPieces .file s)
  unfold filePath
  dsimp only
  split
  · refine .inl fun segment hmem => ?_
    obtain rfl := List.mem_singleton.1 hmem
    decide
  · rcases htrail with h | ⟨drive, rest, heq, hdrive⟩
    · exact .inl fun segment hmem => h segment ((List.dropWhile_sublist _).mem hmem)
    · rw [heq, List.dropWhile_cons_of_neg (by simpa using (of_staysAbove hdrive).1)]
      exact .inr ⟨drive, rest, rfl, hdrive⟩

theorem getD_segments (segments : List String) :
    (Path.segments segments).segments?.getD [] = segments := by
  cases segments <;> rfl

theorem firstStays_withAuthority {k : Kind} {scheme : String} {s : List Char} {url : Url}
    (h : withAuthority k scheme s = .ok url) : FirstStays (url.path.segments?.getD []) := by
  unfold withAuthority at h
  dsimp only at h
  cases hread : readAuthority k scheme (s.span (!endsAuthority k ·)).2.isEmpty
      (s.span (!endsAuthority k ·)).1 with
  | error e =>
      rw [hread] at h
      cases h
  | ok read =>
      rw [hread] at h
      cases h
      rw [getD_segments]
      unfold plainPath specialPath
      split
      · split
        · exact firstStays_nil
        · exact firstStays_resolve _ _
        · exact firstStays_resolve _ _
      · exact firstStays_resolve _ _

theorem firstStays_withoutAuthority (scheme : String) (s : List Char) :
    FirstStays ((withoutAuthority scheme s).path.segments?.getD []) := by
  unfold withoutAuthority
  dsimp only
  split
  · rw [getD_segments]
    exact firstStays_resolve _ _
  · exact firstStays_nil

theorem firstStays_fileUrl (host : Option String) (path rest : List Char) :
    FirstStays ((fileUrl host path rest).path.segments?.getD []) := by
  unfold fileUrl
  dsimp only
  rw [getD_segments]
  exact firstStays_filePath path

theorem firstStays_fileWithHost {s : List Char} {url : Url} (h : fileWithHost s = .ok url) :
    FirstStays (url.path.segments?.getD []) := by
  unfold fileWithHost at h
  dsimp only at h
  split at h
  · cases h
    exact firstStays_fileUrl _ _ _
  · split at h
    · cases h
      exact firstStays_fileUrl _ _ _
    · split at h <;> cases h <;> exact firstStays_fileUrl _ _ _

theorem firstStays_file {s : List Char} {url : Url} (h : file s = .ok url) :
    FirstStays (url.path.segments?.getD []) := by
  have hrest : ∀ (start : List Char) (host : Bool),
      (if host then fileWithHost start.tail
        else .ok (fileUrl none (start.span (!endsPath ·)).1 (start.span (!endsPath ·)).2))
        = .ok url →
      FirstStays (url.path.segments?.getD []) := by
    intro start host h
    cases host with
    | true => exact firstStays_fileWithHost h
    | false =>
        cases h
        exact firstStays_fileUrl _ _ _
  exact hrest _ _ h

/-- So are those of every URL that is read. -/
theorem parse_firstStays {text : String} {url : Url} (h : parse text = .ok url) :
    FirstStays (url.path.segments?.getD []) := by
  unfold parse at h
  dsimp only at h
  split at h
  · cases h
  · split at h
    · exact firstStays_withAuthority h
    · exact firstStays_file h
    · split at h
      · exact firstStays_withAuthority h
      · cases h
        exact firstStays_withoutAuthority _ _

/-- Of the directories that they lead through, the first does not lead
upwards. -/
theorem FirstStays.filter {segments : List String} (h : FirstStays segments) {segment : String}
    {rest : List String} (hfilter : segments.dropLast.filter (· ≠ "") = segment :: rest) :
    isDotDot segment = false := by
  rcases h with h | ⟨drive, later, rfl, hdrive⟩
  · have hmem : segment ∈ segments.dropLast.filter (· ≠ "") := by
      rw [hfilter]
      exact List.mem_cons_self ..
    exact h segment (List.dropLast_subset _ (List.mem_filter.1 hmem).1)
  · obtain ⟨hne, hstays⟩ := of_staysAbove hdrive
    cases later with
    | nil => cases hfilter
    | cons next later =>
        rw [List.dropLast_cons_cons, List.filter_cons_of_pos (by simpa using hne)] at hfilter
        obtain ⟨rfl, -⟩ := List.cons.inj hfilter
        exact hstays

end Depot.Url
