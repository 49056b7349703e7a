/-
Cutting text and joining it again. A text is cut in two at its first
separator (`cutString?_eq_some_iff`). A separator parts the pieces before it
from those after it (`split_slash`), a text without one is a piece of its
own, and pieces that have none are what their joined text is cut into
(`split_joinWith`).
-/
import Depot.Text.Split

namespace Depot.Text

variable {c : Char} {s p : List Char}

-- ===================================================== lists

/-- One more character in front of a text that is cut. -/
theorem pieces_cons_of_ne {x : Char} (hx : x ≠ c) (s : List Char) :
    ∃ p ps, pieces c s = p :: ps ∧ pieces c (x :: s) = (x :: p) :: ps := by
  cases hs : pieces c s with
  | nil => exact absurd hs (pieces_ne_nil c s)
  | cons p ps =>
      refine ⟨p, ps, rfl, ?_⟩
      rw [pieces, if_neg hx, hs]

/-- A separator parts the pieces before it from those after it. -/
theorem pieces_append (c : Char) (a b : List Char) :
    pieces c (a ++ c :: b) = pieces c a ++ pieces c b := by
  induction a with
  | nil => simp [pieces]
  | cons x a ih =>
      by_cases hx : x = c
      · subst hx
        simp [pieces, ih]
      · obtain ⟨p, ps, ha, hxa⟩ := pieces_cons_of_ne hx a
        rw [hxa, List.cons_append, pieces, if_neg hx, ih, ha]
        rfl

/-- A text without separators is one piece. -/
theorem pieces_of_not_mem (h : c ∉ s) : pieces c s = [s] := by
  induction s with
  | nil => rfl
  | cons x s ih =>
      rw [pieces, if_neg fun heq => h (by simp [heq]), ih fun hmem => h (by simp [hmem])]

/-- What is in a piece is in the text, and is no separator. -/
theorem mem_of_mem_pieces {x : Char} (hp : p ∈ pieces c s) (hx : x ∈ p) : x ∈ s ∧ x ≠ c := by
  induction s generalizing p with
  | nil =>
      obtain rfl := List.mem_singleton.1 hp
      cases hx
  | cons y s ih =>
      by_cases hy : y = c
      · rw [pieces, if_pos hy] at hp
        rcases List.mem_cons.1 hp with rfl | hp
        · cases hx
        · exact (ih hp hx).imp_left (List.mem_cons_of_mem _)
      · obtain ⟨q, qs, hs, hys⟩ := pieces_cons_of_ne hy s
        rw [hys] at hp
        rcases List.mem_cons.1 hp with rfl | hp
        · rcases List.mem_cons.1 hx with rfl | hx
          · exact ⟨List.mem_cons_self .., hy⟩
          · exact (ih (hs ▸ List.mem_cons_self ..) hx).imp_left (List.mem_cons_of_mem _)
        · exact (ih (hs ▸ List.mem_cons_of_mem _ hp) hx).imp_left (List.mem_cons_of_mem _)

/-- Pieces are what their joined text is cut into. -/
theorem pieces_join {ps : List (List Char)} (hne : ps ≠ []) (h : ∀ p ∈ ps, c ∉ p) :
    pieces c (join c ps) = ps := by
  induction ps with
  | nil => exact absurd rfl hne
  | cons p ps ih =>
      have hp := pieces_of_not_mem (h p (List.mem_cons_self ..))
      cases ps with
      | nil => exact hp
      | cons q qs =>
          rw [join, pieces_append, hp,
            ih (List.cons_ne_nil _ _) fun r hr => h r (List.mem_cons_of_mem _ hr)]
          rfl

theorem join_append {ps qs : List (List Char)} (hp : ps ≠ []) (hq : qs ≠ []) :
    join c (ps ++ qs) = join c ps ++ c :: join c qs := by
  induction ps with
  | nil => exact absurd rfl hp
  | cons p ps ih => cases ps with
    | nil => cases qs with
      | nil => exact absurd rfl hq
      | cons q qs => rfl
    | cons p' ps =>
        have hrest := ih (List.cons_ne_nil _ _)
        rw [List.cons_append] at hrest
        rw [List.cons_append, List.cons_append, join, hrest, join, List.append_assoc,
          List.cons_append]

/-- Joined pieces make a text without separators just if it is the only
piece. -/
theorem join_eq_iff {ps : List (List Char)} (hs : c ∉ s) (hne : s ≠ []) :
    join c ps = s ↔ ps = [s] := by
  constructor
  · intro h
    cases ps with
    | nil => exact absurd h.symm hne
    | cons p ps => cases ps with
      | nil => rw [← h, join]
      | cons q qs =>
          rw [join] at h
          exact absurd (h ▸ by simp) hs
  · intro h
    rw [h, join]

/-- A text is cut at the first separator, which is dropped. -/
theorem cut?_eq_some_iff {a b : List Char} : cut? c s = some (a, b) ↔ s = a ++ c :: b ∧ c ∉ a := by
  induction s generalizing a with
  | nil => simp [cut?]
  | cons x s ih =>
      unfold cut?
      by_cases hx : x = c
      · subst hx
        rw [if_pos rfl, Option.some_inj, Prod.mk.injEq]
        constructor
        · rintro ⟨rfl, rfl⟩
          exact ⟨rfl, List.not_mem_nil⟩
        · rintro ⟨heq, hfirst⟩
          cases a with
          | nil => exact ⟨rfl, (List.cons.inj heq).2⟩
          | cons y a => exact absurd ((List.cons.inj heq).1 ▸ List.mem_cons_self ..) hfirst
      · rw [if_neg hx, Option.map_eq_some_iff]
        constructor
        · rintro ⟨⟨before, after⟩, hcut, heq⟩
          obtain ⟨rfl, rfl⟩ := Prod.mk.inj heq
          obtain ⟨rfl, hfirst⟩ := ih.1 hcut
          exact ⟨rfl, fun hmem => (List.mem_cons.1 hmem).elim (Ne.symm hx) hfirst⟩
        · rintro ⟨heq, hfirst⟩
          cases a with
          | nil => exact absurd (List.cons.inj heq).1 hx
          | cons y a =>
              obtain ⟨rfl, rfl⟩ := List.cons.inj heq
              exact ⟨(a, b), ih.2 ⟨rfl, fun hmem => hfirst (List.mem_cons_of_mem _ hmem)⟩, rfl⟩

-- ===================================================== strings

theorem cutString?_eq_some_iff {s a b : String} : cutString? c s = some (a, b) ↔
    s = a ++ String.singleton c ++ b ∧ c ∉ a.toList := by
  have hlists : s = a ++ String.singleton c ++ b ↔ s.toList = a.toList ++ c :: b.toList := by
    rw [← String.toList_inj]
    simp
  unfold cutString?
  rw [hlists, ← cut?_eq_some_iff, Option.map_eq_some_iff]
  constructor
  · rintro ⟨⟨before, after⟩, hcut, heq⟩
    obtain ⟨rfl, rfl⟩ := Prod.mk.inj heq
    rwa [String.toList_ofList, String.toList_ofList]
  · intro hcut
    exact ⟨_, hcut, by simp⟩

theorem cutString?_equals {s a b : String} :
    cutString? '=' s = some (a, b) ↔ s = a ++ "=" ++ b ∧ '=' ∉ a.toList :=
  cutString?_eq_some_iff

/-- A slash parts the pieces before it from those after it. -/
theorem split_slash (a b : String) : split '/' (a ++ "/" ++ b) = split '/' a ++ split '/' b := by
  unfold split
  rw [← List.map_append, ← pieces_append, String.toList_append, String.toList_append,
    List.append_assoc]
  rfl

theorem split_of_not_mem {s : String} (h : c ∉ s.toList) : split c s = [s] := by
  unfold split
  rw [pieces_of_not_mem h, List.map_singleton, String.ofList_toList]

theorem split_ne_nil (c : Char) (s : String) : split c s ≠ [] := by
  unfold split
  rw [Ne, List.map_eq_nil_iff]
  exact pieces_ne_nil c s.toList

theorem mem_of_mem_split {s p : String} {x : Char} (hp : p ∈ split c s) (hx : x ∈ p.toList) :
    x ∈ s.toList ∧ x ≠ c := by
  unfold split at hp
  obtain ⟨q, hq, rfl⟩ := List.mem_map.1 hp
  rw [String.toList_ofList] at hx
  exact mem_of_mem_pieces hq hx

theorem joinWith_split (c : Char) (s : String) : joinWith c (split c s) = s := by
  have hid : String.toList ∘ String.ofList = id := funext fun _ => String.toList_ofList
  unfold joinWith split
  rw [List.map_map, hid, List.map_id, join_pieces, String.ofList_toList]

theorem split_joinWith {ps : List String} (hne : ps ≠ []) (h : ∀ p ∈ ps, c ∉ p.toList) :
    split c (joinWith c ps) = ps := by
  unfold split joinWith
  rw [String.toList_ofList, pieces_join (by simpa using hne)]
  · simp
  · intro p hp
    obtain ⟨q, hq, rfl⟩ := List.mem_map.1 hp
    exact h q hq

theorem joinWith_append {ps qs : List String} (hp : ps ≠ []) (hq : qs ≠ []) :
    joinWith '/' (ps ++ qs) = joinWith '/' ps ++ "/" ++ joinWith '/' qs := by
  unfold joinWith
  rw [List.map_append, join_append (by simpa using hp) (by simpa using hq), ← String.toList_inj]
  simp

/-- Texts joined with a separator make a text without one just if it is
the only one of them. -/
theorem joinWith_eq_iff {s : String} {ps : List String} (hs : c ∉ s.toList) (hne : s ≠ "") :
    joinWith c ps = s ↔ ps = [s] := by
  unfold joinWith
  rw [← String.toList_inj, String.toList_ofList, join_eq_iff hs (by simpa using hne)]
  constructor
  · intro h
    obtain ⟨p, rfl, hp⟩ := List.map_eq_singleton_iff.1 h
    rw [String.toList_inj.1 hp]
  · intro h
    rw [h, List.map_singleton]

end Depot.Text
