/-
Texts cut by octets. A cut falls between two characters, or there is nothing
to be had from it; so a part of a text is given by the octets in front of it
and its own (`octets?_eq_some_iff`). Where every character is one octet, every
cut that is not behind the end is such a cut (`octets?_of_narrow`).
-/

namespace Depot.Text

/-- The octets of a text from the first offset up to the second, as a text;
none if one of the offsets is inside a character or behind the end, or if the
first lies behind the second. -/
def octets? (s : String) (start stop : Nat) : Option String := do
  let first ← s.pos? ⟨start⟩
  let last ← s.pos? ⟨stop⟩
  let part ← s.slice? first last
  return part.copy

/-- An offset is a position of a text just if the text can be parted there. -/
theorem pos?_eq_some_iff {s : String} {offset : Nat} {p : s.Pos} :
    s.pos? ⟨offset⟩ = some p ↔ p.offset.byteIdx = offset := by
  unfold String.pos? String.Slice.pos?
  split
  · next hvalid =>
    rw [Option.map_some, Option.some_inj]
    constructor
    · rintro rfl
      rfl
    · rintro rfl
      rfl
  · next hinvalid =>
    refine iff_of_false nofun ?_
    rintro rfl
    refine hinvalid ?_
    rw [String.Pos.Raw.isValidForSlice_eq_true_iff, String.Pos.Raw.isValidForSlice_toSlice_iff]
    exact p.isValid

/-- A part of a text is found by the octets in front of it and its own. -/
theorem octets?_eq_some_iff {s part : String} {start stop : Nat} :
    octets? s start stop = some part ↔
      ∃ before after, s = before ++ part ++ after ∧ before.utf8ByteSize = start
        ∧ (before ++ part).utf8ByteSize = stop := by
  unfold octets?
  simp only [bind, Option.bind_eq_some_iff, pos?_eq_some_iff, pure, Option.some_inj]
  constructor
  · rintro ⟨first, rfl, last, rfl, slice, hslice, rfl⟩
    unfold String.slice? at hslice
    split at hslice
    · next hle =>
      cases hslice
      obtain ⟨before, after, hfirst, hlast⟩ := String.copy_slice_eq_iff_splits.1 ⟨hle, rfl⟩
      refine ⟨before, after, hlast.eq_append, ?_, ?_⟩
      · rw [hfirst.offset_eq_rawEndPos]
        rfl
      · rw [hlast.offset_eq_rawEndPos]
        rfl
    · cases hslice
  · rintro ⟨before, after, hs, rfl, rfl⟩
    have hfirst := String.Pos.splits_ofEqAppend (hs.trans String.append_assoc)
    have hlast := String.Pos.splits_ofEqAppend hs
    obtain ⟨hle, hcopy⟩ := String.copy_slice_eq_iff_splits.2 ⟨before, after, hfirst, hlast⟩
    refine ⟨_, congrArg _ hfirst.offset_eq_rawEndPos, _, congrArg _ hlast.offset_eq_rawEndPos,
      _, ?_, hcopy⟩
    unfold String.slice?
    rw [dif_pos hle]

/-- Text of which every character is one octet. -/
def IsNarrow (s : List Char) : Prop := ∀ c ∈ s, c.utf8Size = 1

/-- It has as many octets as characters. -/
theorem IsNarrow.utf8ByteSize {s : List Char} (h : IsNarrow s) :
    (String.ofList s).utf8ByteSize = s.length := by
  induction s with
  | nil => rfl
  | cons c rest ih =>
      obtain ⟨hc, hrest⟩ := List.forall_mem_cons.1 h
      rw [String.ofList_cons, String.utf8ByteSize_append, String.utf8ByteSize_singleton, hc,
        ih hrest, List.length_cons, Nat.add_comm]

/-- Its octets are its characters. -/
theorem octets?_of_narrow {s : String} {start stop : Nat} (h : IsNarrow s.toList)
    (hstart : start ≤ stop) (hstop : stop ≤ s.toList.length) :
    octets? s start stop = some (String.ofList ((s.toList.take stop).drop start)) := by
  have hparts : s.toList.take start ++ (s.toList.take stop).drop start = s.toList.take stop := by
    have hwhole := List.take_append_drop start (s.toList.take stop)
    rwa [List.take_take, Nat.min_eq_left hstart] at hwhole
  refine octets?_eq_some_iff.2 ⟨String.ofList (s.toList.take start),
    String.ofList (s.toList.drop stop), ?_, ?_, ?_⟩
  · rw [← String.ofList_append, hparts, ← String.ofList_append, List.take_append_drop,
      String.ofList_toList]
  · rw [IsNarrow.utf8ByteSize fun c hc => h c (List.mem_of_mem_take hc), List.length_take]
    omega
  · rw [← String.ofList_append, hparts,
      IsNarrow.utf8ByteSize fun c hc => h c (List.mem_of_mem_take hc), List.length_take]
    omega

end Depot.Text
