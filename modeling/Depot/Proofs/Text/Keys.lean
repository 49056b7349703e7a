/-
Texts as keys. They are in the order of their characters, in which maps
list them (`keys_sorted`), and are found in that list as in the map
(`lookup_toList`); a list in that order is told by what is in it
(`eq_of_sorted`), and stays in order when what all its texts start with is
dropped (`append_lt_append_iff`). The texts that start alike come one after
the other (`startsWith_of_between`), so a scan that begins where they would
and stops at the first other text finds them all (`scan_eq_filter`).
-/
import Std.Data.ExtTreeMap
import Depot.Text.Split

namespace Depot

-- ===================================================== maps

/-- Texts are compared by their characters, the first that differ
decide. -/
theorem compare_eq_lt_iff {a b : String} : compare a b = .lt ↔ a < b := by
  have h : compare a b = compareOfLessAndEq a b := rfl
  rw [h]
  unfold compareOfLessAndEq
  split
  · simp [*]
  · split <;> simp [*]

/-- The keys of a map are listed in order, each once. -/
theorem keys_sorted {α : Type} (map : Std.ExtTreeMap String α) : map.keys.Pairwise (· < ·) :=
  map.ordered_keys.imp fun h => compare_eq_lt_iff.1 h

/-- The values of a map are listed in the order of their keys. -/
theorem values_eq_map_toList {α : Type} (map : Std.ExtTreeMap String α) :
    map.values = map.toList.map (·.2) := by
  obtain ⟨map⟩ := map
  induction map using Std.ExtDTreeMap.inductionOn with
  | mk map =>
      show map.inner.values = (Std.DTreeMap.Internal.Impl.Const.toList map.inner).map (·.2)
      rw [Std.DTreeMap.Internal.Impl.values_eq_map_snd,
        Std.DTreeMap.Internal.Impl.Const.toList_eq_toListModel_map]
      simp

/-- Looking a key up in the list of a map is looking it up in the map. -/
theorem lookup_toList {α : Type} (m : Std.ExtTreeMap String α) (key : String) :
    m.toList.lookup key = m[key]? := by
  cases hlist : m.toList.lookup key with
  | none =>
      cases hmap : m[key]? with
      | none => rfl
      | some a =>
          have hmem := Std.ExtTreeMap.mem_toList_iff_getElem?_eq_some.2 hmap
          exact absurd (List.lookup_eq_none_iff.1 hlist _ hmem) (by simp)
  | some a =>
      obtain ⟨before, after, heq, -⟩ := List.lookup_eq_some_iff.1 hlist
      have hmem : (key, a) ∈ m.toList := by
        rw [heq]
        exact List.mem_append_right _ (List.mem_cons_self ..)
      rw [Std.ExtTreeMap.mem_toList_iff_getElem?_eq_some.1 hmem]

theorem distinct_toList {α : Type} (m : Std.ExtTreeMap String α) :
    m.toList.Pairwise fun a b => a.1 ≠ b.1 := by
  apply m.distinct_keys_toList.imp
  intro a b h
  simpa using h

/-- A value that is there already changes nothing. -/
theorem insert_eq_self {α : Type} {map : Std.ExtTreeMap String α} {key : String} {a : α}
    (h : map[key]? = some a) : map.insert key a = map := by
  refine Std.ExtTreeMap.ext_getElem? fun k => ?_
  rw [Std.ExtTreeMap.getElem?_insert]
  split
  · next heq => rw [← Std.LawfulEqCmp.eq_of_compare heq, h]
  · rfl

/-- Of two values for one key, the second counts. -/
theorem insert_insert {α : Type} (map : Std.ExtTreeMap String α) (key : String) (a b : α) :
    (map.insert key a).insert key b = map.insert key b := by
  refine Std.ExtTreeMap.ext_getElem? fun k => ?_
  simp only [Std.ExtTreeMap.getElem?_insert]
  split <;> rfl

-- ===================================================== lists in order

/-- Lists in order, each text once, are the same if the same is in them. -/
theorem eq_of_sorted {a b : List String} (ha : a.Pairwise (· < ·)) (hb : b.Pairwise (· < ·))
    (h : ∀ s, s ∈ a ↔ s ∈ b) : a = b := by
  have hperm : a.Perm b :=
    (List.perm_ext_iff_of_nodup (ha.imp String.ne_of_lt) (hb.imp String.ne_of_lt)).2 h
  exact hperm.eq_of_pairwise (fun x y _ _ hxy hyx => absurd hyx (String.lt_asymm hxy)) ha hb

/-- What texts start with says nothing of their order. -/
theorem append_lt_append_iff {lead a b : String} : lead ++ a < lead ++ b ↔ a < b := by
  have hmono : ∀ {a b : String}, a < b → lead ++ a < lead ++ b := by
    intro a b h
    rw [String.lt_iff, String.toList_append, String.toList_append]
    exact List.append_left_lt (String.lt_iff.1 h)
  refine ⟨fun h => ?_, hmono⟩
  apply Classical.byContradiction
  intro hnot
  by_cases heq : a = b
  · rw [heq] at h
    exact String.lt_irrefl _ h
  · exact String.lt_asymm h (hmono (Std.lt_of_le_of_ne (String.not_lt.1 hnot) (Ne.symm heq)))

namespace Text

/-- What is left of a text is what follows what it starts with. -/
theorem dropLead?_eq_some {lead s rest : List Char} :
    dropLead? lead s = some rest ↔ s = lead ++ rest := by
  induction lead generalizing s with
  | nil => simp [dropLead?]
  | cons x lead ih =>
      cases s with
      | nil => simp [dropLead?]
      | cons y s =>
          unfold dropLead?
          split
          · next heq => simp [ih, heq]
          · next hne => simp [Ne.symm hne]

theorem startsWith_iff {lead s : String} : startsWith lead s = true ↔ ∃ rest, s = lead ++ rest := by
  unfold startsWith
  rw [Option.isSome_iff_exists]
  constructor
  · rintro ⟨rest, hrest⟩
    refine ⟨String.ofList rest, ?_⟩
    rw [← String.toList_inj, String.toList_append, String.toList_ofList]
    exact dropLead?_eq_some.1 hrest
  · rintro ⟨rest, rfl⟩
    exact ⟨rest.toList, dropLead?_eq_some.2 String.toList_append⟩

-- ===================================================== texts that start alike

variable {lead a b : String}

/-- No text is before what it starts with. -/
theorem not_lt_of_startsWith (h : startsWith lead a = true) : ¬ a < lead := by
  obtain ⟨rest, rfl⟩ := startsWith_iff.1 h
  intro hlt
  rw [String.lt_iff, String.toList_append] at hlt
  generalize lead.toList = lead at hlt
  induction lead with
  | nil => exact List.not_lt_nil _ hlt
  | cons x lead ih =>
      rcases List.cons_lt_cons_iff.1 hlt with hx | ⟨-, hlt⟩
      · exact Char.lt_irrefl x hx
      · exact ih hlt

/-- A text between the beginning of another and that other begins so, too. -/
theorem startsWith_of_between (hlead : ¬ a < lead) (hab : a < b)
    (h : startsWith lead b = true) : startsWith lead a = true := by
  obtain ⟨rest, rfl⟩ := startsWith_iff.1 h
  unfold startsWith
  rw [String.lt_iff] at hlead
  rw [String.lt_iff, String.toList_append] at hab
  generalize lead.toList = lead, a.toList = a at hlead hab
  induction lead generalizing a with
  | nil => rfl
  | cons x lead ih =>
      cases a with
      | nil => exact absurd (List.nil_lt_cons x lead) hlead
      | cons y a =>
          rw [List.cons_lt_cons_iff] at hlead
          rcases List.cons_lt_cons_iff.1 hab with hyx | ⟨rfl, hbehind⟩
          · exact absurd (.inl hyx) hlead
          · unfold dropLead?
            rw [if_pos rfl]
            exact ih _ (fun hlt => hlead (.inr ⟨rfl, hlt⟩)) hbehind

variable {α : Type} {entries : List (String × α)}

/-- From a key on, what starts with it comes first. -/
theorem takeWhile_eq_filter (hsorted : entries.Pairwise fun a b => a.1 < b.1)
    (hfrom : ∀ entry ∈ entries, ¬ entry.1 < lead) :
    (entries.takeWhile fun entry => startsWith lead entry.1)
      = entries.filter fun entry => startsWith lead entry.1 := by
  induction entries with
  | nil => rfl
  | cons entry rest ih =>
      obtain ⟨hbefore, hrest⟩ := List.pairwise_cons.1 hsorted
      rw [List.takeWhile_cons, List.filter_cons]
      split
      · rw [ih hrest fun other hother => hfrom other (List.mem_cons_of_mem _ hother)]
      · next hentry =>
        symm
        rw [List.filter_eq_nil_iff]
        intro other hother hstarts
        exact hentry (startsWith_of_between (hfrom entry (List.mem_cons_self ..))
          (hbefore other hother) hstarts)

/-- A scan of entries in order, from a key on up to the first that does not
start with it, finds all that do. -/
theorem scan_eq_filter (hsorted : entries.Pairwise fun a b => a.1 < b.1) (lead : String) :
    ((entries.dropWhile fun entry => entry.1 < lead).takeWhile fun entry =>
      startsWith lead entry.1) = entries.filter fun entry => startsWith lead entry.1 := by
  induction entries with
  | nil => rfl
  | cons entry rest ih =>
      obtain ⟨hbefore, hrest⟩ := List.pairwise_cons.1 hsorted
      by_cases hlt : entry.1 < lead
      · have hstarts : ¬ startsWith lead entry.1 = true := fun h => not_lt_of_startsWith h hlt
        rw [List.dropWhile_cons_of_pos (by simpa using hlt), ih hrest,
          List.filter_cons, if_neg hstarts]
      · rw [List.dropWhile_cons_of_neg (by simpa using hlt)]
        refine takeWhile_eq_filter hsorted fun other hother hother_lt => ?_
        rcases List.mem_cons.1 hother with rfl | hother
        · exact hlt hother_lt
        · exact hlt (Std.lt_trans (hbefore other hother) hother_lt)

end Text

end Depot
